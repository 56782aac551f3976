import StagedParser.Proofs.Code.Emission
import StagedParser.Proofs.Code.Form
import StagedParser.Proofs.Code.Running
import StagedParser.Proofs.Name.Texts

/-! Emitted code is well formed.
The names that a fragment binds come from its own scopes, each bound once; it uses only what is
declared by then, and it always lets the next statement follow. A program adds to the fragment of
its grammar that it ends with an answer.
-/

namespace StagedParser

namespace Code

variable {H : Host} {table : List (Constant H)}

-----------------------------------------------------------------------------------------
-- Names bound by code
-----------------------------------------------------------------------------------------

/-- The locals and labels that code binds, at any depth. -/
def binders (code : List Stmt) : List Name :=
  (statements code).flatMap fun statement => statement.declares ++ statement.labels

/-- The statements of code are those of its parts, by induction on the first part. -/
theorem statements_append (code more : List Stmt)
    : statements (code ++ more) = statements code ++ statements more := by
  induction code with
  | nil => rw [statements, List.nil_append, List.nil_append]
  | cons first rest ih => rw [List.cons_append, statements, statements, ih, List.append_assoc]

/-- So are the names that it binds. -/
theorem binders_append (code more : List Stmt)
    : binders (code ++ more) = binders code ++ binders more := by
  rw [binders, statements_append, List.flatMap_append]
  rfl

/-- Names from the scopes `first … last - 1` that are all different and are told apart by their
texts. -/
structure Distinct (first last : Nat) (names : List Name) : Prop where
  nodup : names.Nodup
  inside : ∀ name ∈ names, Inside first last name
  plain : ∀ name ∈ names, name.Plain

/-- No names are distinct. -/
theorem Distinct.nil (first last : Nat) : Distinct first last [] :=
  ⟨List.nodup_nil, by simp, by simp⟩

/-- Names of scopes one after another are all different. -/
theorem Distinct.append {first middle last : Nat} {left right : List Name} (low : first ≤ middle)
    (high : middle ≤ last) (distinctLeft : Distinct first middle left)
    (distinctRight : Distinct middle last right)
    : Distinct first last (left ++ right) := by
  refine ⟨List.nodup_append.mpr ⟨distinctLeft.nodup, distinctRight.nodup, ?_⟩, ?_, ?_⟩
  · intro name member other memberRight same
    obtain ⟨scope, mark, _, below⟩ := distinctLeft.inside name member
    obtain ⟨later, laterMark, above, _⟩ := distinctRight.inside other memberRight
    rw [same, laterMark] at mark
    injection mark with equal
    omega
  · intro name member
    rcases List.mem_append.mp member with left | right
    · exact (distinctLeft.inside name left).mono (Nat.le_refl first) high
    · exact (distinctRight.inside name right).mono low (Nat.le_refl last)
  · intro name member
    rcases List.mem_append.mp member with left | right
    · exact distinctLeft.plain name left
    · exact distinctRight.plain name right

/-- Names of one scope with different plain bases are all different. -/
theorem distinct_within (scope : Nat) (bases : List String) (nodup : (bases.map Text.ofString).Nodup)
    (plain : ∀ base ∈ bases, Text.underscore ∉ Text.ofString base)
    : Distinct scope (scope + 1) (bases.map (Name.within scope)) := by
  refine ⟨?_, ?_, ?_⟩
  · have inverse : (bases.map (Name.within scope)).map Name.base = bases.map Text.ofString := by
      rw [List.map_map]
      rfl
    refine List.Pairwise.of_map Name.base ?_ (inverse ▸ nodup)
    exact fun left right differ same => differ (congrArg Name.base same)
  · intro name member
    obtain ⟨base, _, rfl⟩ := List.mem_map.mp member
    exact ⟨scope, rfl, Nat.le_refl scope, Nat.lt_succ_self scope⟩
  · intro name member
    obtain ⟨base, inside, rfl⟩ := List.mem_map.mp member
    exact ⟨by simp [Name.within], plain base inside⟩

-----------------------------------------------------------------------------------------
-- Fragments
-----------------------------------------------------------------------------------------

/-- The form of a fragment from the scopes `first … last - 1`: wherever the parameters may be used it
can be spliced, and after it its success and its value may be used. -/
structure FragmentForm (size : Nat) (fragment : Fragment) (first last : Nat) : Prop where
  distinct : Distinct first last (binders fragment.spliced)
  formed
    : ∀ visible enclosing,
        parameters ⊆ visible → WellFormed size visible enclosing fragment.spliced
  falls : ∀ exit ∈ exits fragment.spliced, exit = .falls
  success : fragment.success ∈ fragment.locals
  value : fragment.value.identifiers ⊆ fragment.locals.map Name.text
  constantFree : fragment.value.slots = []

/-- A slot that is bound is one of the table. -/
theorem slot_lt {slot : Nat} {constant : Constant H} (bound : table[slot]? = some constant)
    : slot < table.length :=
  (List.getElem?_eq_some_iff.mp bound).1

section Spliced

variable {size first last : Nat} {fragment : Fragment}

/-- Splicing in a fragment declares its locals. -/
theorem FragmentForm.declares_locals (form : FragmentForm size fragment first last)
    : fragment.locals ⊆ fragment.spliced.flatMap Stmt.declares := by
  have nonempty : fragment.locals.isEmpty = false :=
    List.isEmpty_eq_false_iff.mpr (List.ne_nil_of_mem form.success)
  intro name member
  rw [Fragment.spliced, nonempty, if_neg Bool.false_ne_true, List.flatMap_cons]
  exact List.mem_append_left _ member

/-- Its success is then visible. -/
theorem FragmentForm.success_visible (form : FragmentForm size fragment first last)
    (visible : List Text)
    : fragment.success.text ∈ (fragment.spliced.flatMap Stmt.declares).map Name.text ++ visible :=
  List.mem_append_left _ (List.mem_map_of_mem (form.declares_locals form.success))

/-- And so is its value. -/
theorem FragmentForm.value_visible (form : FragmentForm size fragment first last)
    (visible : List Text)
    : fragment.value.identifiers
      ⊆ (fragment.spliced.flatMap Stmt.declares).map Name.text ++ visible := by
  intro identifier member
  obtain ⟨name, inside, rfl⟩ := List.mem_map.mp (form.value member)
  exact List.mem_append_left _ (List.mem_map_of_mem (form.declares_locals inside))

end Spliced

section Announced

variable {size slot : Nat} {rest : List Stmt} (names : List Name)

/-- Announcing binds the names it declares. -/
theorem binders_announced
    : binders (.declare names :: .enter slot :: rest) = names ++ binders rest := by
  simp [binders, statements, Stmt.statements, Stmt.declares, Stmt.labels]

/-- Announcing exits nothing. -/
theorem mem_exits_announced {exit : Exit}
    : exit ∈ exits (.declare names :: .enter slot :: rest) ↔ exit ∈ exits rest := by
  simp [mem_exits_cons, Stmt.exits]

/-- Code that declares names and announces a parser is well formed if what follows is, where the
names may be used too. -/
theorem wellFormed_announced {visible enclosing : List Text} (nonempty : names ≠ [])
    (slotInside : slot < size) (given : parameters ⊆ visible)
    (formed
      : ∀ wider,
          parameters ⊆ wider
          → (∀ name ∈ names, name.text ∈ wider)
          → WellFormed size wider enclosing rest)
    : WellFormed size visible enclosing (.declare names :: .enter slot :: rest) := by
  have wider : parameters ⊆ names.map Name.text ++ visible :=
    List.subset_append_of_subset_right _ given
  simp only [wellFormed_cons, wellFormed_declare, wellFormed_enter, Stmt.declares, List.map_nil,
    List.nil_append]
  refine ⟨nonempty, ⟨wider (by simp [parameters]), wider (by simp [parameters]), slotInside⟩, ?_⟩
  exact formed _ wider fun name member => List.mem_append_left _ (List.mem_map_of_mem member)

end Announced

section Converting

variable {size first last : Nat} {fragment : Fragment} {success value : Name} {expression : Expr}
  {yes no rest : List Stmt}

/-- Converting binds what the fragment and the branches bind. -/
theorem binders_converting
    : binders (fragment.converting success value expression yes no rest)
      = binders fragment.spliced ++ (binders yes ++ binders no ++ binders rest) := by
  rw [Fragment.converting, binders_append]
  simp [binders, statements, Stmt.statements, Stmt.declares, Stmt.labels]

/-- Code that converts what a fragment yields ends as what follows a match, what follows none, or
what follows both. -/
theorem FragmentForm.mem_exits_converting (form : FragmentForm size fragment first last) {exit : Exit}
    (member : exit ∈ exits (fragment.converting success value expression yes no rest))
    : exit ∈ exits yes ∧ exit ≠ .falls ∨ exit ∈ exits no ∧ exit ≠ .falls ∨ exit ∈ exits rest := by
  rw [Fragment.converting, mem_exits_append] at member
  rcases member with ⟨inside, passes⟩ | ⟨_, member⟩
  · exact absurd (form.falls exit inside) passes
  · simp only [mem_exits_cons, Stmt.exits, List.mem_append] at member
    grind

/-- Code that converts what a fragment yields is well formed if the names it notes a match in may be
used, the conversion may after the fragment, and so may what follows. -/
theorem FragmentForm.wellFormed_converting (form : FragmentForm size fragment first last)
    {visible enclosing : List Text} (given : parameters ⊆ visible)
    (seenSuccess : success.text ∈ visible) (seenValue : value.text ∈ visible)
    (identifiers : expression.identifiers ⊆ constantsName :: fragment.value.identifiers)
    (slots : ∀ slot ∈ expression.slots, slot < size)
    (formed
      : ∀ wider,
          visible ⊆ wider
          → WellFormed size wider enclosing yes
            ∧ WellFormed size wider enclosing no
            ∧ WellFormed size wider enclosing rest)
    : WellFormed size visible enclosing
        (fragment.converting success value expression yes no rest) := by
  refine (form.formed visible enclosing given).append ?_
  let wider := (fragment.spliced.flatMap Stmt.declares).map Name.text ++ visible
  have more : visible ⊆ wider := List.subset_append_right _ _
  have constants : constantsName ∈ wider := more (given (by simp [parameters]))
  have used : expression.identifiers ⊆ wider :=
    List.Subset.trans identifiers (List.cons_subset.mpr ⟨constants, form.value_visible visible⟩)
  obtain ⟨formedYes, formedNo, formedRest⟩ := formed wider more
  simp only [wellFormed_cons, wellFormed_branch, wellFormed_assign, Stmt.declares, List.map_nil,
    List.nil_append]
  refine ⟨⟨form.success_visible visible, ?_, formedNo⟩, formedRest⟩
  exact ⟨⟨more seenSuccess, by simp [Expr.identifiers, Atom.identifiers],
    by simp [Expr.slots, Atom.slots]⟩, ⟨more seenValue, used, slots⟩, formedYes⟩

end Converting

/-- A leaf names its success and its value differently and without underscores, and its call uses the
parameters only. -/
theorem reading_form {grammar : Grammar H} {success value : String} {method : Method}
    {arguments : List Atom} (leaf : Reading table grammar success value method arguments)
    : (([success, value].map Text.ofString).Nodup
        ∧ ∀ base ∈ [success, value], Text.underscore ∉ Text.ofString base)
      ∧ (Expr.onCursor method arguments).identifiers ⊆ parameters
      ∧ ∀ slot ∈ (Expr.onCursor method arguments).slots, slot < table.length := by
  cases leaf with
  | literal id text ignoreCase =>
      exact ⟨by decide, by simp [Expr.identifiers, Atom.identifiers, parameters],
        by simp [Expr.slots, Atom.slots]⟩
  | pattern id test min max bound =>
      exact ⟨by decide, by simp [Expr.identifiers, Atom.identifiers, parameters],
        by simp [Expr.slots, Atom.slots, slot_lt bound]⟩

/-- The fragment of a leaf has its form: two names, and arguments that are bound. -/
theorem form_reading {grammar : Grammar H} {success value : String} {method : Method}
    {arguments : List Atom} {scope slot : Nat}
    (leaf : Reading table grammar success value method arguments)
    (bound : table[slot]? = some (.parser grammar.entry))
    : FragmentForm table.length (readingFragment scope slot success value method arguments)
        scope (scope + 1) := by
  obtain ⟨⟨nodup, plain⟩, identifiers, slots⟩ := reading_form leaf
  refine ⟨distinct_within scope [success, value] nodup plain, ?_, ?_, ?_, ?_, rfl⟩
  · intro visible enclosing given
    refine wellFormed_announced [.within scope success, .within scope value] (by simp)
      (slot_lt bound) given fun wider given own => ?_
    have seenSuccess := own (.within scope success) (by simp)
    have seenValue := own (.within scope value) (by simp)
    simp only [wellFormed_cons, wellFormed_assign, Stmt.declares, List.map_nil, List.nil_append]
    refine ⟨⟨seenValue, List.Subset.trans identifiers given, slots⟩, ⟨seenSuccess, ?_, ?_⟩,
      wellFormed_nil⟩
    · simpa [Expr.identifiers, Atom.identifiers] using seenValue
    · simp [Expr.slots, Atom.slots]
  · simp [readingFragment, Fragment.spliced, exits, Stmt.exits]
  · simp [readingFragment]
  · simp [readingFragment, Atom.identifiers]

/-- So has the fragment that hands over to a parser from outside. -/
theorem form_foreign {id : Nat} {name : Text} {parser : H.Foreign} {scope maker self : Nat}
    (boundMaker : table[maker]? = some .recordMaker)
    (boundSelf : table[self]? = some (.foreign ⟨id, name⟩ parser))
    : FragmentForm table.length (foreignFragment scope maker self) scope (scope + 1) := by
  have distinct := distinct_within scope ["delegateSuccess", "delegateResult"] (by decide) (by decide)
  refine ⟨distinct, ?_, ?_, ?_, ?_, rfl⟩
  · intro visible enclosing given
    have context : contextName ∈ visible := given (by simp [parameters])
    have constants : constantsName ∈ visible := given (by simp [parameters])
    have makerInside := slot_lt boundMaker
    have selfInside := slot_lt boundSelf
    simp [foreignFragment, Fragment.spliced, Stmt.declares, Expr.identifiers, Expr.slots, context,
      constants, makerInside, selfInside]
  · simp [foreignFragment, Fragment.spliced, exits, Stmt.exits]
  · simp [foreignFragment]
  · simp [foreignFragment, Atom.identifiers]

/-- A map has its form if its source has. -/
theorem form_map {id : Nat} {source : Grammar H} {transform : Conversion H} {inner : Fragment}
    {scope last slot function : Nat} (above : scope + 1 < last)
    (form : FragmentForm table.length inner (scope + 1) last)
    (bound : table[slot]? = some (.parser (Grammar.map id source transform).entry))
    (boundFunction : table[function]? = some (.conversion transform))
    : FragmentForm table.length (mapFragment scope slot function inner) scope last := by
  let names : List Name := [.within scope "thenSuccess", .within scope "thenValue"]
  have own := distinct_within scope ["thenSuccess", "thenValue"] (by decide) (by decide)
  refine ⟨?_, ?_, ?_, ?_, ?_, rfl⟩
  · have shape : binders (mapFragment scope slot function inner).spliced
        = names ++ binders inner.spliced := by
      refine (binders_announced names).trans (congrArg (names ++ ·) ?_)
      rw [binders_converting]
      simp [binders, statements, Stmt.statements, Stmt.declares, Stmt.labels]
    rw [shape]
    exact own.append (Nat.le_succ scope) (Nat.le_of_lt above) form.distinct
  · intro visible enclosing given
    refine wellFormed_announced names (by simp [names]) (slot_lt bound) given fun wider given own => ?_
    have seenSuccess := own (.within scope "thenSuccess") (by simp [names])
    have seenValue := own (.within scope "thenValue") (by simp [names])
    refine form.wellFormed_converting given seenSuccess seenValue (List.Subset.refl _) ?_ ?_
    · simp [Expr.slots, form.constantFree, slot_lt boundFunction]
    · intro widest more
      simp [Expr.identifiers, Expr.slots, Atom.identifiers, Atom.slots, more seenSuccess]
  · intro exit member
    have inside := form.mem_exits_converting ((mem_exits_announced names).mp member)
    simp only [exits, Stmt.exits] at inside
    grind
  · simp [mapFragment]
  · simp [mapFragment, Atom.identifiers]

/-- A choice without alternatives has its form. -/
theorem form_empty {id scope slot : Nat}
    (bound : table[slot]? = some (.parser (Grammar.oneOf id [] : Grammar H).entry))
    : FragmentForm table.length (emptyFragment scope slot) scope (scope + 1) := by
  have distinct := distinct_within scope ["orSuccess"] (by decide) (by decide)
  refine ⟨distinct, ?_, ?_, ?_, ?_, rfl⟩
  · intro visible enclosing given
    refine wellFormed_announced [.within scope "orSuccess"] (by simp) (slot_lt bound) given
      fun wider given own => ?_
    simp [Expr.identifiers, Expr.slots, Atom.identifiers, Atom.slots, own]
  · simp [emptyFragment, Fragment.spliced, exits, Stmt.exits]
  · simp [emptyFragment]
  · simp [emptyFragment, Atom.identifiers]

-----------------------------------------------------------------------------------------
-- Choices
-----------------------------------------------------------------------------------------

/-- A conversion uses the constants and its operand, and slots of the table only. -/
theorem converted_form {value : Atom} {conversion : Conversion H} {expression : Expr}
    (converted : Converted table value conversion expression) (constantFree : value.slots = [])
    : expression.identifiers ⊆ constantsName :: value.identifiers
      ∧ ∀ slot ∈ expression.slots, slot < table.length := by
  cases converted with
  | identity => simp [Expr.identifiers, Expr.slots, constantFree]
  | given bound => simp [Expr.identifiers, Expr.slots, constantFree, slot_lt bound]

section Alternatives

variable {scope slot first last : Nat} {alternatives : List (EmittedAlternative H)}

/-- What is known of the alternatives of a choice. -/
def AlternativesForm (table : List (Constant H)) (alternatives : List (EmittedAlternative H)) : Prop :=
  ∀ a ∈ alternatives,
    a.first < a.last
    ∧ FragmentForm table.length a.fragment a.first a.last
    ∧ Converted table a.fragment.value a.conversion a.converted

/-- Alternatives bind different names, by induction on the alternatives. -/
theorem distinct_alternatives (choice : Emit.Choice) (each : AlternativesForm table alternatives)
    (consecutive : Consecutive first alternatives last)
    : Distinct first last (binders (alternatives.flatMap (·.code choice))) := by
  induction alternatives generalizing first with
  | nil => exact Distinct.nil first last
  | cons a rest ih =>
      obtain ⟨starts, restConsecutive⟩ := consecutive
      obtain ⟨above, form, _⟩ := each a (by simp)
      have eachRest : AlternativesForm table rest := fun b member =>
        each b (List.mem_cons_of_mem a member)
      have below : a.last ≤ last :=
        consecutive_le (fun b member => (eachRest b member).1) restConsecutive
      have own : binders (a.code choice) = binders a.fragment.spliced := by
        rw [EmittedAlternative.code, binders_converting]
        simp [binders, statements, Stmt.statements, Stmt.declares, Stmt.labels]
      rw [List.flatMap_cons, binders_append, own, ← starts]
      exact form.distinct.append (Nat.le_of_lt above) below (ih eachRest restConsecutive)

/-- Alternatives either leave their choice or let the next statement follow, by induction on the
alternatives. -/
theorem exits_alternatives (choice : Emit.Choice) (each : AlternativesForm table alternatives)
    {tail : List Stmt} {exit : Exit}
    (member : exit ∈ exits (alternatives.flatMap (·.code choice) ++ tail))
    : exit = .leaves choice.label ∨ exit ∈ exits tail := by
  induction alternatives with
  | nil => exact .inr member
  | cons a rest ih =>
      obtain ⟨_, form, _⟩ := each a (by simp)
      rw [List.flatMap_cons, List.append_assoc, EmittedAlternative.code,
        Fragment.converting_append] at member
      rcases form.mem_exits_converting member with ⟨left, _⟩ | ⟨falls, passes⟩ | continued
      · simp only [exits, Stmt.exits] at left
        grind
      · simp only [exits, List.mem_singleton] at falls
        exact absurd falls passes
      · rw [List.singleton_append, mem_exits_cons] at continued
        simp only [Stmt.exits, List.mem_singleton] at continued
        refine ih (fun b inside => each b (List.mem_cons_of_mem a inside)) ?_
        grind

/-- The code of alternatives is well formed inside the block of their choice, by induction on the
alternatives. -/
theorem wellFormed_alternatives (choice : Emit.Choice) (each : AlternativesForm table alternatives)
    {tail : List Stmt} {visible enclosing : List Text} (given : parameters ⊆ visible)
    (own : ∀ name ∈ [choice.success, choice.value, choice.start], name.text ∈ visible)
    (inside : choice.label.text ∈ enclosing)
    (formed : ∀ wider, visible ⊆ wider → WellFormed table.length wider enclosing tail)
    : WellFormed table.length visible enclosing (alternatives.flatMap (·.code choice) ++ tail) := by
  induction alternatives generalizing visible with
  | nil => exact formed visible (List.Subset.refl visible)
  | cons a rest ih =>
      obtain ⟨_, form, conversion⟩ := each a (by simp)
      obtain ⟨identifiers, slots⟩ := converted_form conversion form.constantFree
      rw [List.flatMap_cons, List.append_assoc, EmittedAlternative.code, Fragment.converting_append]
      refine form.wellFormed_converting given (own choice.success (by simp))
        (own choice.value (by simp)) identifiers slots fun wider more => ⟨?_, wellFormed_nil, ?_⟩
      · simpa using inside
      · have context : contextName ∈ wider := more (given (by simp [parameters]))
        have start : choice.start.text ∈ wider := more (own choice.start (by simp))
        have continued := ih (fun b member => each b (List.mem_cons_of_mem a member))
          (List.Subset.trans given more) (fun name member => more (own name member))
          fun widest evenMore => formed widest (List.Subset.trans more evenMore)
        simpa [Stmt.declares, Atom.identifiers, Atom.slots, context, start] using continued

/-- A choice has its form if its alternatives, one after another, have theirs. -/
theorem form_choice {grammar : Grammar H} (bound : table[slot]? = some (.parser grammar.entry))
    (each : AlternativesForm table alternatives)
    (consecutive : Consecutive (scope + 1) alternatives last)
    : FragmentForm table.length
        ((Emit.Choice.within scope slot).fragment
          (alternatives.flatMap (·.code (.within scope slot))))
        scope last := by
  let choice := Emit.Choice.within scope slot
  let names : List Name := [choice.success, choice.value, choice.start]
  have above : scope + 1 ≤ last := consecutive_le (fun a member => (each a member).1) consecutive
  have own := distinct_within scope ["orSuccess", "orValue", "orStart", "choice"] (by decide)
    (by decide)
  refine ⟨?_, ?_, ?_, ?_, ?_, rfl⟩
  · have shape : binders (choice.fragment (alternatives.flatMap (·.code choice))).spliced
        = (names ++ [choice.label]) ++ binders (alternatives.flatMap (·.code choice)) := by
      refine (binders_announced names).trans ?_
      rw [List.append_assoc]
      refine congrArg (names ++ ·) ?_
      simp [binders, statements, Stmt.statements, Stmt.declares, Stmt.labels, statements_append]
    rw [shape]
    exact own.append (Nat.le_succ scope) above (distinct_alternatives choice each consecutive)
  · intro visible enclosing given
    refine wellFormed_announced names (by simp [names]) (slot_lt bound) given fun wider given own => ?_
    have seenStart := own choice.start (by simp [names])
    have seenSuccess := own choice.success (by simp [names])
    have context : contextName ∈ wider := given (by simp [parameters])
    simp only [wellFormed_cons, wellFormed_assign, wellFormed_block, Stmt.declares, List.map_nil,
      List.nil_append]
    refine ⟨⟨seenStart, by simp [Expr.identifiers, Atom.identifiers, context],
      by simp [Expr.slots, Atom.slots]⟩, ?_, wellFormed_nil⟩
    refine wellFormed_alternatives choice each given own (by simp [choice]) fun widest more => ?_
    simpa [Expr.identifiers, Expr.slots, Atom.identifiers, Atom.slots] using more seenSuccess
  · let body := alternatives.flatMap (·.code choice) ++ [.assign choice.success (.atom (.flag false))]
    have block : ∀ exit ∈ (Stmt.block choice.label body).exits, exit = .falls := by
      intro exit member
      rw [Stmt.exits] at member
      obtain ⟨inner, inside, rfl⟩ := List.mem_map.mp member
      rcases exits_alternatives choice each inside with rfl | last
      · rw [if_pos rfl]
      · simp only [exits, Stmt.exits] at last
        grind
    intro exit member
    have inside := (mem_exits_announced names).mp member
    rw [mem_exits_cons, mem_exits_cons] at inside
    rcases inside with ⟨assigned, _⟩ | ⟨_, ⟨left, _⟩ | ⟨_, last⟩⟩
    · simpa [Stmt.exits] using assigned
    · exact block exit left
    · simpa [exits] using last
  · simp [Emit.Choice.fragment]
  · simp [Emit.Choice.fragment, Atom.identifiers]

end Alternatives

-----------------------------------------------------------------------------------------
-- Whole programs
-----------------------------------------------------------------------------------------

/-- Names of a scope are names of a wider range of scopes. -/
theorem FragmentForm.mono {size outer first last : Nat} {fragment : Fragment} (low : outer ≤ first)
    (form : FragmentForm size fragment first last)
    : FragmentForm size fragment outer last where
  distinct := {
    nodup := form.distinct.nodup
    inside := fun name member => (form.distinct.inside name member).mono low (Nat.le_refl last)
    plain := form.distinct.plain
  }
  formed := form.formed
  falls := form.falls
  success := form.success
  value := form.value
  constantFree := form.constantFree

end Code

open Code

variable {H : Host} {table : List (Constant H)}

/-- Emitted fragments are well formed. Witness: induction on what was emitted. -/
theorem Emitted.form {grammar : Grammar H} {first last : Nat} {fragment : Fragment}
    (emitted : Emitted table grammar first last fragment)
    : FragmentForm table.length fragment first last := by
  induction emitted with
  | reading leaf bound => exact form_reading leaf bound
  | map emitted bound boundFunction ih => exact form_map emitted.lt ih bound boundFunction
  | empty bound => exact form_empty bound
  | choice choices nonempty bound each conversions consecutive ih =>
      refine form_choice bound (fun a member => ?_) consecutive
      exact ⟨(each a member).lt, ih a member, conversions a member⟩
  | staged emitted ih => exact ih.mono (Nat.le_succ _)
  | foreign boundMaker boundSelf => exact form_foreign boundMaker boundSelf

/-- A well-formed program: every identifier is declared once and is no parameter, every label is used
once, all that is used is declared by then, and every way to the end is an answer by a flag. -/
structure Program.WellFormed (program : Program H) : Prop where
  declaredOnce : ((declared program.code).map Name.text).Nodup
  declaredApart : ∀ name ∈ declared program.code, name.text ∉ parameters
  labelledOnce : ((labels program.code).map Name.text).Nodup
  formed : Code.WellFormed program.table.length parameters [] program.code
  answers : ∀ exit ∈ exits program.code, ∃ matched, exit = .answers (.flag matched)

/-- Names taken from each statement are a sublist of all that are bound, by induction on the
statements. -/
theorem sublist_binders {names : Stmt → List Name} (statements : List Stmt)
    (each : ∀ statement, (names statement).Sublist (statement.declares ++ statement.labels))
    : (statements.flatMap names).Sublist
        (statements.flatMap fun statement => statement.declares ++ statement.labels) := by
  induction statements with
  | nil => exact List.Sublist.refl []
  | cons first rest ih => exact (each first).append ih

/-- Different plain names have different texts. -/
theorem nodup_texts {names : List Name} (nodup : names.Nodup) (plain : ∀ name ∈ names, name.Plain)
    : (names.map Name.text).Nodup := by
  refine List.pairwise_map.mpr (nodup.imp_of_mem ?_)
  intro left right memberLeft memberRight differ same
  exact differ (Name.eq_of_text_eq (plain left memberLeft).requested
    (plain right memberRight).requested same)

/-- The names that a whole program binds are all different. -/
theorem framed_binders {size last : Nat} {fragment : Fragment}
    (form : FragmentForm size fragment 0 last)
    : (binders fragment.framed).Nodup ∧ ∀ name ∈ binders fragment.framed, name.Plain := by
  have shape : binders fragment.framed = .start :: binders fragment.spliced := by
    rw [Fragment.framed, List.cons_append]
    simp [binders, statements, Stmt.statements, Stmt.declares, Stmt.labels, statements_append]
  have plainStart : Name.start.Plain := ⟨by simp [Name.start], by decide⟩
  rw [shape]
  refine ⟨List.nodup_cons.mpr ⟨fun member => ?_, form.distinct.nodup⟩, ?_⟩
  · obtain ⟨scope, mark, _⟩ := form.distinct.inside _ member
    cases mark
  · exact List.forall_mem_cons.mpr ⟨plainStart, form.distinct.plain⟩

/-- A whole program ends with an answer by a flag: its fragment falls through, and after it there is
nothing but answers. -/
theorem framed_exits {size last : Nat} {fragment : Fragment}
    (form : FragmentForm size fragment 0 last) {exit : Exit} (member : exit ∈ exits fragment.framed)
    : ∃ matched, exit = .answers (.flag matched) := by
  rw [Fragment.framed, List.cons_append, mem_exits_cons, mem_exits_append] at member
  rcases member with ⟨defined, passes⟩ | ⟨_, ⟨inside, passes⟩ | ⟨_, member⟩⟩
  · exact absurd (by simpa [Stmt.exits] using defined) passes
  · exact absurd (form.falls exit inside) passes
  · rw [mem_exits_cons] at member
    rcases member with ⟨matched, passes⟩ | ⟨_, refused⟩
    · refine ⟨true, ?_⟩
      simp [Stmt.exits, exits] at matched
      grind
    · exact ⟨false, by simpa [exits, Stmt.exits] using refused⟩

/-- The program around a fragment is well formed if the fragment has its form. -/
theorem framed_wellFormed {size last : Nat} {fragment : Fragment}
    (form : FragmentForm size fragment 0 last)
    : Code.WellFormed size parameters [] fragment.framed := by
  let visible := Name.start.text :: parameters
  let wider := (fragment.spliced.flatMap Stmt.declares).map Name.text ++ visible
  have more : visible ⊆ wider := List.subset_append_right _ _
  have context : contextName ∈ wider := more (by simp [visible, parameters])
  have result : resultName ∈ wider := more (by simp [visible, parameters])
  have start : Name.start.text ∈ wider := more (by simp [visible])
  have success : fragment.success.text ∈ wider := form.success_visible visible
  have value : fragment.value.identifiers ⊆ wider := form.value_visible visible
  have reported : (Atom.name .start).identifiers ++ Atom.position.identifiers
      ++ fragment.value.identifiers ⊆ wider :=
    List.append_subset.mpr ⟨by simp [Atom.identifiers, context, start], value⟩
  rw [Fragment.framed, List.cons_append, wellFormed_cons]
  refine ⟨by simp [Atom.identifiers, Atom.slots, parameters], ?_⟩
  refine (form.formed visible [] (List.subset_cons_self _ _)).append ?_
  simp only [wellFormed_cons, wellFormed_branch, wellFormed_report, wellFormed_answer, Stmt.declares,
    List.map_nil, List.nil_append]
  refine ⟨⟨success, ⟨⟨result, reported, ?_⟩, ?_, wellFormed_nil⟩, wellFormed_nil⟩, ?_, wellFormed_nil⟩
  · rw [form.constantFree]
    simp [Atom.slots]
  · simp [Atom.identifiers, Atom.slots]
  · simp [Atom.identifiers, Atom.slots]

/-- The program of an unscripted grammar is well formed. -/
theorem Grammar.program_wellFormed (grammar : Grammar H) (unscripted : grammar.Unscripted)
    : ∃ program, grammar.program = .ok program ∧ program.WellFormed := by
  obtain ⟨program, fragment, last, generated, code, emitted⟩ :=
    grammar.program_of_unscripted unscripted
  have form := emitted.form
  obtain ⟨nodup, plain⟩ := framed_binders form
  have locals : (declared fragment.framed).Sublist (binders fragment.framed) :=
    sublist_binders _ fun statement => List.sublist_append_left _ _
  have opened : (labels fragment.framed).Sublist (binders fragment.framed) :=
    sublist_binders _ fun statement => List.sublist_append_right _ _
  refine ⟨program, generated, ?_⟩
  constructor
  · rw [code]
    exact nodup_texts (locals.nodup nodup) fun name member => plain name (locals.subset member)
  · rw [code]
    exact fun name member =>
      Name.text_not_mem_of_requested (plain name (locals.subset member)).requested (by decide)
  · rw [code]
    exact nodup_texts (opened.nodup nodup) fun name member => plain name (opened.subset member)
  · rw [code]
    exact framed_wellFormed form
  · rw [code]
    exact fun exit member => framed_exits form member

/-- Every run of a well-formed program that comes to an end answers with a flag, so the run is the
answer or stops where the code itself stopped. Witness: the ways to the end are sound. -/
theorem Program.WellFormed.run_eq {program : Program H} (formed : program.WellFormed) {σ : Type}
    (hook : Hook σ) (parser : Text) (scene : Scene σ)
    : (∃ matched after,
        answer hook program.table program.code scene = .ok (.value (.flag matched)) after
        ∧ program.run hook parser scene = .ok matched after)
      ∨ ∃ fault after,
          answer hook program.table program.code scene = .error fault after
          ∧ program.run hook parser scene = .error fault after := by
  cases ended : answer hook program.table program.code scene with
  | error fault after =>
      exact .inr ⟨fault, after, rfl, run_bind_error ended⟩
  | ok datum after =>
      obtain ⟨⟨flow, locals⟩, between, ran, continued⟩ := of_run_bind ended
      obtain ⟨exit, member, follows⟩ := exits_sound program.code ran
      obtain ⟨matched, rfl⟩ := formed.answers exit member
      cases follows with
      | answers value locals evaluated =>
          cases evaluated
          cases continued
          exact .inl ⟨matched, after, rfl, run_bind_ok ended⟩

end StagedParser
