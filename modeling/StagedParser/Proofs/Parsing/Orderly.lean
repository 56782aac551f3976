import StagedParser.Proofs.Cursor.Walking
import StagedParser.Proofs.Grammar.Denotation

/-! Parsing keeps cursors at canonical positions.
A self-contained grammar moves the cursor by taking texts and runs and by returning to where it
started, so from a canonical position it leads to a canonical position, also when a test, a function
or the entry hook stops it midway. The hook may move the cursor as well, as long as it goes back to
canonical positions only.
-/

namespace StagedParser

variable {H : Host} {σ α β : Type}

namespace Buffer

/-- A position that agrees with the text of the buffer. -/
def Has (buffer : Buffer) (position : Position) : Prop :=
  ∃ offset ≤ buffer.size, position = buffer.positionAt offset

/-- A position before the start or beyond the end of the buffer. -/
def Excludes (buffer : Buffer) (position : Position) : Prop :=
  ¬(0 ≤ position.offset ∧ position.offset ≤ Number.ofNat buffer.size)

instance (buffer : Buffer) (position : Position) : Decidable (buffer.Excludes position) :=
  inferInstanceAs (Decidable (¬_))

end Buffer

namespace Cursor

/-- A cursor of the buffer at a canonical position. -/
def IsCanonical (buffer : Buffer) (c : Cursor) : Prop :=
  ∃ offset ≤ buffer.size, c = buffer.cursorAt offset

variable {buffer : Buffer}

/-- The start is a canonical cursor. -/
theorem isCanonical_start (buffer : Buffer) : (start buffer).IsCanonical buffer :=
  ⟨0, Nat.zero_le _, rfl⟩

/-- The position of a canonical cursor is one of the buffer. -/
theorem IsCanonical.has {c : Cursor} (canonical : c.IsCanonical buffer) : buffer.Has c.position := by
  obtain ⟨offset, inside, rfl⟩ := canonical
  exact ⟨offset, inside, rfl⟩

/-- One step leads from a canonical cursor to one. -/
theorem keptByStep_isCanonical (buffer : Buffer) : KeptByStep (IsCanonical buffer) := by
  intro c unit stands canonical
  obtain ⟨offset, inside, rfl⟩ := canonical
  rw [unit?_cursorAt buffer inside] at stands
  exact ⟨offset + 1, buffer.lt_size stands, step_cursorAt buffer stands⟩

/-- A canonical cursor can move to every position that agrees with the text, and is then the cursor
that stands there. -/
theorem IsCanonical.moveTo_eq {c other : Cursor} (canonical : c.IsCanonical buffer)
    (target : other.IsCanonical buffer)
    : c.moveTo other.position = .ok other := by
  obtain ⟨_, _, rfl⟩ := canonical
  obtain ⟨offset, inside, rfl⟩ := target
  exact moveTo_positionAt buffer _ inside

/-- Moving to a position of the buffer leads to a canonical cursor. -/
theorem isCanonical_of_moveTo {c moved : Cursor} {position : Position}
    (canonical : c.IsCanonical buffer) (has : buffer.Has position)
    (moves : c.moveTo position = .ok moved)
    : moved.IsCanonical buffer := by
  obtain ⟨offset, inside, rfl⟩ := has
  have target : (buffer.cursorAt offset).IsCanonical buffer := ⟨offset, inside, rfl⟩
  cases (canonical.moveTo_eq target).symm.trans moves
  exact target

/-- Moving out of the buffer is a fault. -/
theorem moveTo_of_excluded {c : Cursor} {position : Position} (outside : c.buffer.Excludes position)
    : c.moveTo position = .error (.invariant (.outside position.offset c.buffer.size)) := by
  rw [moveTo, if_neg outside]

end Cursor

-----------------------------------------------------------------------------------------
-- Parsing keeps cursors canonical
-----------------------------------------------------------------------------------------

/-- A movement that leads to a canonical position, or is refused. -/
def Move.IsOrderly (buffer : Buffer) : Move → Prop
  | .advance _ => True
  | .moveTo position => buffer.Has position ∨ buffer.Excludes position

/-- A hook that moves the cursors of a buffer in an orderly way. `sound` is what it relies on in its
notes, as a hook may note positions and go back to them later. -/
structure Hook.IsOrderly (hook : Hook σ) (buffer : Buffer) (sound : σ → Prop) : Prop where
  moves
    : ∀ entry cursor notes,
        cursor.IsCanonical buffer
        → sound notes
        → ∀ step ∈ (hook.react entry cursor notes).moves, step.IsOrderly buffer
  notes
    : ∀ entry cursor notes,
        cursor.IsCanonical buffer → sound notes → sound (hook.react entry cursor notes).notes

/-- A hook that never moves the cursor is orderly. -/
theorem Hook.isOrderly_of_moves_eq_nil {hook : Hook σ} (buffer : Buffer)
    (unmoved : ∀ entry cursor notes, (hook.react entry cursor notes).moves = [])
    : hook.IsOrderly buffer fun _ => True where
  moves entry cursor notes _ _ := by simp [unmoved]
  notes _ _ _ _ _ := trivial

/-- A scene with a canonical cursor and sound notes. -/
structure Scene.IsOrderly (buffer : Buffer) (sound : σ → Prop) (scene : Scene σ) : Prop where
  canonical : scene.cursor.IsCanonical buffer
  sound : sound scene.notes

/-- The scene that an ending left. -/
def Ending.scene : Ending σ α → Scene σ
  | .ok _ after | .error _ after => after

namespace Parsing

/-- Work that keeps an invariant of scenes, whether it returns or stops. -/
def Keeps (invariant : Scene σ → Prop) (work : Parsing σ α) : Prop :=
  ∀ scene, invariant scene → invariant (Ending.scene (work scene))

section Sequences

variable {invariant : Scene σ → Prop}

/-- Giving back a value keeps everything. -/
theorem keeps_pure (value : α) : Keeps invariant (pure value : Parsing σ α) :=
  fun _ holds => holds

/-- So does giving back a result. -/
theorem keeps_ofResult (result : Except Fault α)
    : Keeps invariant (ofResult result : Parsing σ α) := by
  intro scene holds
  cases result with
  | ok value => exact holds
  | error fault => exact holds

/-- Pieces that keep an invariant make work that keeps it, by the way the first of them ends. -/
theorem Keeps.bind {work : Parsing σ α} {next : α → Parsing σ β} (keeps : Keeps invariant work)
    (each : ∀ value, Keeps invariant (next value))
    : Keeps invariant (work >>= next) := by
  intro scene holds
  have kept := keeps scene holds
  cases ended : work scene with
  | ok value after =>
      rw [ended] at kept
      rw [run_bind_ok ended]
      exact each value after kept
  | error fault after =>
      rw [ended] at kept
      rw [run_bind_error ended]
      exact kept

end Sequences

variable {buffer : Buffer} {sound : σ → Prop}

/-- An orderly move keeps a scene orderly. -/
theorem keeps_move {step : Move} (orderly : step.IsOrderly buffer)
    : Keeps (Scene.IsOrderly buffer sound) (move step) := by
  intro scene holds
  simp only [move]
  cases moved : scene.cursor.apply step with
  | error fault => exact holds
  | ok cursor =>
      refine ⟨?_, holds.sound⟩
      cases step with
      | advance count =>
          cases moved
          exact (Cursor.keptByStep_isCanonical buffer).walk holds.canonical _
      | moveTo position =>
          rcases orderly with has | outside
          · exact Cursor.isCanonical_of_moveTo holds.canonical has moved
          · -- A move out of the buffer would have been refused.
            obtain ⟨_, _, same⟩ := holds.canonical
            have refused := Cursor.moveTo_of_excluded (c := scene.cursor) (by rw [same]; exact outside)
            rw [Cursor.apply, refused] at moved
            cases moved

/-- Moving the cursor step by step keeps it canonical, by induction on the steps. -/
theorem keeps_moveAll {steps : List Move} (orderly : ∀ step ∈ steps, step.IsOrderly buffer)
    : Keeps (Scene.IsOrderly buffer sound) (moveAll steps) := by
  induction steps with
  | nil => exact keeps_pure ()
  | cons step rest ih =>
      refine Keeps.bind (keeps_move (orderly step List.mem_cons_self)) fun _ => ?_
      exact ih fun step member => orderly step (List.mem_cons_of_mem _ member)

/-- So does going back to a position of the buffer. -/
theorem keeps_returnTo {start : Position} (has : buffer.Has start)
    : Keeps (Scene.IsOrderly buffer sound) (returnTo start) :=
  keeps_move (.inl has)

/-- So does taking a text. -/
theorem keeps_takeText (text : Text) (ignoreCase : Bool)
    : Keeps (Scene.IsOrderly buffer sound) (takeText text ignoreCase) :=
  fun _ holds =>
    ⟨(Cursor.keptByStep_isCanonical buffer).takeText holds.canonical text ignoreCase, holds.sound⟩

/-- So does taking a run, whether it is given back or not. -/
theorem keeps_takeWhile (test : CodeUnit → Except Fault Bool) (min max : Int)
    : Keeps (Scene.IsOrderly buffer sound) (takeWhile test min max) := by
  intro scene holds
  have canonical := (Cursor.keptByStep_isCanonical buffer).takeWhile holds.canonical test min max
  simp only [takeWhile]
  generalize scene.cursor.takeWhile test min max = result at canonical
  obtain ⟨taken | fault, cursor⟩ := result
  · exact ⟨canonical, holds.sound⟩
  · exact ⟨canonical, holds.sound⟩

/-- So does converting what such work yields. -/
theorem keeps_converted (conversion : Conversion H) {work : Parsing σ (Option Value)}
    (keeps : Keeps (Scene.IsOrderly buffer sound) work)
    : Keeps (Scene.IsOrderly buffer sound) (converted conversion work) := by
  refine keeps.bind fun value => ?_
  cases value with
  | none => exact keeps_pure none
  | some value => exact (keeps_ofResult _).bind fun _ => keeps_pure _

/-- So does trying two such pieces of work from a position of the buffer. -/
theorem keeps_orReturn {start : Position} (has : buffer.Has start)
    {first second : Parsing σ (Option Value)}
    (left : Keeps (Scene.IsOrderly buffer sound) first)
    (right : Keeps (Scene.IsOrderly buffer sound) second)
    : Keeps (Scene.IsOrderly buffer sound) (orReturn start first second) := by
  refine left.bind fun value => ?_
  cases value with
  | some value => exact keeps_pure (some value)
  | none => exact (keeps_returnTo has).bind fun _ => right

/-- The alternatives of a choice keep the scene orderly if each of them does, by induction on the
alternatives. -/
theorem keeps_firstMatch {hook : Hook σ} {start : Position} (has : buffer.Has start)
    (choices : List (Grammar H × Conversion H))
    (each
      : ∀ choice ∈ choices, Keeps (Scene.IsOrderly buffer sound) (choice.1.meaning hook))
    : Keeps (Scene.IsOrderly buffer sound) (firstMatch hook start choices) := by
  induction choices with
  | nil =>
      rw [firstMatch]
      exact keeps_pure none
  | cons first rest ih =>
      rw [firstMatch]
      refine keeps_orReturn has (keeps_converted first.2 (each first List.mem_cons_self)) ?_
      exact ih fun choice member => each choice (List.mem_cons_of_mem _ member)

/-- The report of work keeps cursor and notes as orderly as the work does: the record is no part of
that. -/
theorem keeps_report {work : Parsing σ (Option Value)}
    (keeps : Keeps (Scene.IsOrderly buffer sound) work)
    : Keeps (Scene.IsOrderly buffer sound) (report work) := by
  intro scene
  rw [report, run_position_bind]
  refine keeps.bind (fun value => ?_) scene
  cases value with
  | none => exact keeps_pure false
  | some value => exact fun _ holds => ⟨holds.canonical, holds.sound⟩

variable {hook : Hook σ} (orderly : hook.IsOrderly buffer sound)

include orderly

/-- An orderly hook keeps the scene orderly. -/
theorem keeps_enter (entry : Entry) : Keeps (Scene.IsOrderly buffer sound) (enter hook entry) := by
  intro scene holds
  have moves := orderly.moves entry scene.cursor scene.notes holds.canonical holds.sound
  have noted := orderly.notes entry scene.cursor scene.notes holds.canonical holds.sound
  have moved := keeps_moveAll moves
    { scene with notes := (hook.react entry scene.cursor scene.notes).notes }
    ⟨holds.canonical, noted⟩
  simp only [enter]
  cases ended : moveAll _ _ with
  | error fault after =>
      rw [ended] at moved
      exact moved
  | ok _ after =>
      rw [ended] at moved
      cases (hook.react entry scene.cursor scene.notes).fault with
      | some fault => exact moved
      | none => exact moved

/-- A choice notes where it starts only after it was announced, and starts at a canonical position. -/
theorem keeps_fromStart (entry : Entry) {next : Position → Parsing σ α}
    (each : ∀ start, buffer.Has start → Keeps (Scene.IsOrderly buffer sound) (next start))
    : Keeps (Scene.IsOrderly buffer sound)
        (do enter hook entry; let start ← position; next start) := by
  refine (keeps_enter orderly entry).bind fun _ scene holds => ?_
  rw [run_position_bind]
  exact each scene.cursor.position holds.canonical.has scene holds

end Parsing

open Parsing

section Grammars

variable {buffer : Buffer} {sound : σ → Prop} {hook : Hook σ} (orderly : hook.IsOrderly buffer sound)

include orderly

/-- What a choice means keeps the scene orderly if what its alternatives mean does. -/
theorem Grammar.keeps_meaning_choice {grammar : Grammar H}
    {choices : List (Grammar H × Conversion H)} (found : grammar.choices? = some choices)
    (each
      : ∀ choice ∈ choices, Keeps (Scene.IsOrderly buffer sound) (choice.1.meaning hook))
    : Keeps (Scene.IsOrderly buffer sound) (grammar.meaning hook) := by
  rw [meaning_choice hook found]
  exact keeps_fromStart orderly _ fun start has => keeps_firstMatch has choices each

/-- The meaning of a grammar keeps the scene orderly, by induction on the grammar. -/
theorem Grammar.keeps_meaning (grammar : Grammar H) (contained : grammar.SelfContained)
    : Keeps (Scene.IsOrderly buffer sound) (grammar.meaning hook) := by
  induction grammar with
  | literal id text ignoreCase =>
      rw [meaning]
      exact (keeps_enter orderly _).bind fun _ =>
        (keeps_takeText text ignoreCase).bind fun _ => keeps_pure _
  | pattern id test min max =>
      rw [meaning]
      exact (keeps_enter orderly _).bind fun _ =>
        (keeps_takeWhile _ _ _).bind fun _ => keeps_pure _
  | map id source transform ih =>
      rw [meaning]
      exact (keeps_enter orderly _).bind fun _ =>
        keeps_converted transform (ih (contained.child mem_children_map))
  | oneOf id alternatives ih =>
      refine keeps_meaning_choice orderly rfl fun choice member => ?_
      obtain ⟨alternative, inside, rfl⟩ := List.mem_map.mp member
      exact ih alternative inside (contained.child inside)
  | either id left right ofLeft ofRight ihLeft ihRight =>
      refine keeps_meaning_choice orderly rfl fun choice member => ?_
      simp only [List.mem_cons, List.not_mem_nil, or_false] at member
      rcases member with rfl | rfl
      · exact ihLeft (contained.child left_mem_children_either)
      · exact ihRight (contained.child right_mem_children_either)
  | staged id source generated ih =>
      rw [meaning]
      exact ih (contained.child mem_children_staged)
  | foreign id name parser =>
      exact absurd rfl ((contained _ (self_mem_nodes _)).1 id name parser)
  | scripted id name emission =>
      exact absurd rfl ((contained _ (self_mem_nodes _)).2 id name emission)

/-- Parsing with a self-contained grammar keeps the scene orderly, however it ends. Witness: it
leaves the cursor and the notes that the report of its meaning leaves. -/
theorem Grammar.keeps_parse (grammar : Grammar H) (contained : grammar.SelfContained)
    : Keeps (Scene.IsOrderly buffer sound) (grammar.parse hook) := by
  have unscripted : grammar.Unscripted := fun node member => (contained node member).2
  have foreigns : grammar.ForeignsSatisfy hook IgnoresRecord := fun id name parser member =>
    absurd rfl ((contained _ member).1 id name parser)
  obtain ⟨ignores, yields⟩ := grammar.interpreted_of_unscripted hook unscripted foreigns
  intro scene holds
  have agree := ignores.agree_report scene scene.record
  have kept := keeps_report (grammar.keeps_meaning orderly contained) scene holds
  rw [yields] at agree
  change Ending.Agree _ _ (report (grammar.meaning hook) scene) at agree
  generalize grammar.parse hook scene = ending at agree
  generalize report (grammar.meaning hook) scene = reported at agree kept
  cases agree with
  | matched cursor found notes => exact ⟨kept.canonical, kept.sound⟩
  | failed cursor left right notes => exact ⟨kept.canonical, kept.sound⟩
  | faulted fault cursor left right notes => exact ⟨kept.canonical, kept.sound⟩

end Grammars

end StagedParser
