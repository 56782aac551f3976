import StagedParser.Proofs.Code.Emission
import StagedParser.Proofs.Name.Scopes

/-! Tables of constants that only grow.
Constants are bound by requests, and a request adds to the table only what equals nothing in it. So
whatever work at a workbench consists of, and even if it ends with a fault, the slots filled before stay
as they are and no two slots hold equal constants.
-/

namespace StagedParser

variable {H : Host} {α β : Type}

-----------------------------------------------------------------------------------------
-- Equal constants
-----------------------------------------------------------------------------------------

/-- Whether a value is known by what it is and not by an identity. -/
def Value.isSimple : Value → Bool
  | .absent | .null | .flag _ | .number _ | .text _ => true
  | .list _ | .record _ => false

namespace Constant

/-- Constants that are equal: plain ones with the same simple value, lists or records with one identity,
and anything with itself. -/
inductive Equals : Constant H → Constant H → Prop
  | itself (constant : Constant H) : Equals constant constant
  | simple {value : Value} (simple : value.isSimple = true) (id other : Nat)
    : Equals (.plain ⟨id, value⟩) (.plain ⟨other, value⟩)
  | list (id : Nat) (items others : List Value)
    : Equals (.plain ⟨id, .list items⟩) (.plain ⟨id, .list others⟩)
  | record (id : Nat) (fields others : Fields)
    : Equals (.plain ⟨id, .record fields⟩) (.plain ⟨id, .record others⟩)

/-- Equality of constants is symmetric. -/
theorem Equals.symm {left right : Constant H} (equal : left.Equals right) : right.Equals left := by
  cases equal with
  | itself => exact .itself _
  | simple simple id other => exact .simple simple other id
  | list id items others => exact .list id others items
  | record id fields others => exact .record id others fields

/-- Equality of constants is transitive, by the kinds of constants. -/
theorem Equals.trans {left middle right : Constant H} (first : left.Equals middle)
    (second : middle.Equals right)
    : left.Equals right := by
  cases first with
  | itself => exact second
  | simple simple id other =>
      cases second with
      | itself => exact .simple simple id other
      | simple _ _ third => exact .simple simple id third
      | list => cases simple
      | record => cases simple
  | list id items others =>
      cases second with
      | itself => exact .list id items others
      | simple simple => cases simple
      | list _ _ third => exact .list id items third
  | record id fields others =>
      cases second with
      | itself => exact .record id fields others
      | simple simple => cases simple
      | record _ _ third => exact .record id fields third

/-- Equal constants are recognized as such, by their kinds. -/
theorem same_of_equals {left right : Constant H} (equal : left.Equals right)
    : left.same right = true := by
  cases equal with
  | itself =>
      cases left with
      | plain constant =>
          obtain ⟨id, value⟩ := constant
          cases value <;> simp [same, PlainConstant.same]
      | parser | foreign | recordMaker | conversion => simp [same]
  | @simple value simple =>
      cases value with
      | list | record => cases simple
      | absent | null | flag | number | text => simp [same, PlainConstant.same]
  | list | record => simp [same, PlainConstant.same]

/-- Plain constants that share a slot are equal, by the kinds of their values. -/
theorem equals_of_same_plain {left right : PlainConstant} (same : left.same right = true)
    : Equals (.plain left : Constant H) (.plain right) := by
  obtain ⟨id, value⟩ := left
  obtain ⟨other, held⟩ := right
  cases value <;> cases held <;> try cases same
  case absent.absent => exact .simple rfl id other
  case null.null => exact .simple rfl id other
  case flag.flag | number.number | text.text =>
    obtain rfl := eq_of_beq same
    exact .simple rfl id other
  case list.list items others =>
    obtain rfl := eq_of_beq same
    exact .list id items others
  case record.record fields others =>
    obtain rfl := eq_of_beq same
    exact .record id fields others

/-- Constants share a slot just if they are equal. -/
theorem same_iff_equals {left right : Constant H} : left.same right = true ↔ left.Equals right := by
  refine ⟨fun same => ?_, same_of_equals⟩
  by_cases plain : ∃ constant, right = .plain constant
  · obtain ⟨constant, rfl⟩ := plain
    cases left with
    | plain other => exact equals_of_same_plain same
    | parser | foreign | recordMaker | conversion => cases same
  · exact eq_of_same same (fun constant equal => plain ⟨constant, equal⟩) ▸ .itself left

-----------------------------------------------------------------------------------------
-- Tables
-----------------------------------------------------------------------------------------

/-- A slot of a table holds a constant or one that equals it. -/
def Holds (table : List (Constant H)) (slot : Nat) (wanted : Constant H) : Prop :=
  ∃ held, table[slot]? = some held ∧ held.Equals wanted

/-- A slot holds in a longer table what it held. -/
theorem Holds.mono {bound table : List (Constant H)} (extended : bound <+: table) {slot : Nat}
    {wanted : Constant H} (holds : Holds bound slot wanted)
    : Holds table slot wanted := by
  obtain ⟨held, found, equal⟩ := holds
  exact ⟨held, held_of_prefix extended found, equal⟩

/-- No two slots of a table hold equal constants. -/
def Unrepeated (table : List (Constant H)) : Prop :=
  ∀ (slot other : Nat) (left right : Constant H),
    table[slot]? = some left → table[other]? = some right → left.Equals right → slot = other

/-- A later state of a table. It grew by constants that equal none of those before them. -/
inductive Grows (before : List (Constant H)) : List (Constant H) → Prop
  | unchanged : Grows before before
  | bound {after : List (Constant H)} {wanted : Constant H} (earlier : Grows before after)
    (new : ∀ held ∈ after, ¬ held.Equals wanted)
    : Grows before (after ++ [wanted])

variable {before between after : List (Constant H)}

/-- Slots that are filled stay as they are. -/
theorem Grows.keeps (grown : Grows before after) : before <+: after := by
  induction grown with
  | unchanged => exact List.prefix_refl before
  | bound earlier new ih => exact ih.trans (List.prefix_append _ _)

/-- Growth adds up, by induction on the later part. -/
theorem Grows.trans (first : Grows before between) (second : Grows between after)
    : Grows before after := by
  induction second with
  | unchanged => exact first
  | bound earlier new ih => exact ih.bound new

/-- A slot of a table with one more constant is one of the table, or the last one. -/
theorem getElem?_concat {table : List (Constant H)} {wanted held : Constant H} {slot : Nat}
    (found : (table ++ [wanted])[slot]? = some held)
    : table[slot]? = some held ∨ slot = table.length ∧ held = wanted := by
  rw [List.getElem?_append] at found
  split at found
  · exact .inl found
  · next outside =>
      obtain ⟨inside, same⟩ := List.getElem?_eq_some_iff.mp found
      simp only [List.length_singleton, List.getElem_singleton] at inside same
      exact .inr ⟨by omega, same.symm⟩

/-- Growing repeats nothing. Witness: induction on the constants that were added. -/
theorem Grows.unrepeated (grown : Grows before after) (unrepeated : Unrepeated before)
    : Unrepeated after := by
  induction grown with
  | unchanged => exact unrepeated
  | @bound after wanted earlier new ih =>
      intro slot other left right found foundOther equal
      rcases getElem?_concat found with old | ⟨last, rfl⟩
      · rcases getElem?_concat foundOther with oldOther | ⟨lastOther, rfl⟩
        · exact ih slot other left right old oldOther equal
        · exact absurd equal (new left (List.mem_of_getElem? old))
      · rcases getElem?_concat foundOther with oldOther | ⟨lastOther, rfl⟩
        · exact absurd equal.symm (new right (List.mem_of_getElem? oldOther))
        · exact last.trans lastOther.symm

/-- A table that has grown from the empty one repeats nothing. -/
theorem Grows.unrepeated_of_nil (grown : Grows [] after) : Unrepeated after :=
  grown.unrepeated (by simp [Unrepeated])

/-- In a table without repetitions one slot at most holds a constant. -/
theorem Unrepeated.eq_of_holds {table : List (Constant H)} (unrepeated : Unrepeated table)
    {slot other : Nat} {wanted : Constant H} (holds : Holds table slot wanted)
    (holdsOther : Holds table other wanted)
    : slot = other := by
  obtain ⟨held, found, equal⟩ := holds
  obtain ⟨heldOther, foundOther, equalOther⟩ := holdsOther
  exact unrepeated slot other held heldOther found foundOther (equal.trans equalOther.symm)

end Constant

open Constant

-----------------------------------------------------------------------------------------
-- Work that binds constants
-----------------------------------------------------------------------------------------

namespace Emit

/-- All that a request for a slot can do: it finds the slot of an equal constant and changes nothing, or
it adds the constant, if none in the table equals it. -/
theorem constant_cases (bench : Workbench H) (wanted : Constant H)
    : (∃ slot, constant wanted bench = .ok slot bench ∧ Holds bench.constants slot wanted)
      ∨ constant wanted bench
            = .ok bench.constants.length (bench.fill wanted)
          ∧ ∀ held ∈ bench.constants, ¬ held.Equals wanted := by
  cases found : bench.slot? wanted with
  | some slot =>
      refine .inl ⟨slot, by simp only [constant, found], ?_⟩
      rw [bench.slot?_eq] at found
      obtain ⟨inside, same, _⟩ := List.findIdx?_eq_some_iff_getElem.mp found
      exact ⟨_, List.getElem?_eq_getElem inside, same_iff_equals.mp same⟩
  | none =>
      refine .inr ⟨by simp only [constant, found], fun held member equal => ?_⟩
      rw [bench.slot?_eq] at found
      have differs := List.findIdx?_eq_none_iff.mp found held member
      rw [same_iff_equals.mpr equal] at differs
      cases differs

/-- From a table without repetitions a request gives the one slot that holds the constant, and it adds a
slot only if there is none. -/
theorem constant_of_unrepeated {bench : Workbench H} (unrepeated : Unrepeated bench.constants)
    (wanted : Constant H)
    : ∃ slot after,
        constant wanted bench = .ok slot after
        ∧ (∀ other, Holds after.constants other wanted ↔ other = slot)
        ∧ ((∃ held ∈ bench.constants, held.Equals wanted) → after = bench)
        ∧ ((∀ held ∈ bench.constants, ¬ held.Equals wanted)
            → after = bench.fill wanted) := by
  rcases constant_cases bench wanted with ⟨slot, found, holds⟩ | ⟨added, new⟩
  · refine ⟨slot, bench, found, fun other => ⟨fun holdsOther => ?_, ?_⟩, fun _ => rfl, fun none => ?_⟩
    · exact unrepeated.eq_of_holds holdsOther holds
    · rintro rfl
      exact holds
    · obtain ⟨held, there, equal⟩ := holds
      exact absurd equal (none held (List.mem_of_getElem? there))
  · have unrepeatedAfter := (Grows.unchanged.bound new).unrepeated unrepeated
    have holds : Holds (bench.constants ++ [wanted]) bench.constants.length wanted :=
      ⟨wanted, List.getElem?_concat_length, .itself wanted⟩
    refine ⟨_, _, added, fun other => ⟨fun holdsOther => ?_, ?_⟩, ?_, fun _ => rfl⟩
    · exact unrepeatedAfter.eq_of_holds holdsOther holds
    · rintro rfl
      exact holds
    · rintro ⟨held, member, equal⟩
      exact absurd equal (new held member)

/-- How work on a workbench ends. In any case the table grew. What is returned is right by the table
that is left and by all that it grows to, and a fault has a reason. -/
inductive Ended (bench : Workbench H) (reason : Prop) (right : List (Constant H) → α → Prop)
    : EStateM.Result Fault (Workbench H) α → Prop
  | returned {value : α} {after : Workbench H} (grown : Grows bench.constants after.constants)
    (correct : ∀ table, after.constants <+: table → right table value)
    : Ended bench reason right (.ok value after)
  | faulted {fault : Fault} {after : Workbench H} (grown : Grows bench.constants after.constants)
    (because : reason)
    : Ended bench reason right (.error fault after)

/-- Work that ends so on every workbench. -/
def Binds (work : Emit H α) (reason : Prop) (right : List (Constant H) → α → Prop) : Prop :=
  ∀ bench, Ended bench reason right (work bench)

variable {work : Emit H α} {next : α → Emit H β} {reason : Prop}
  {right : List (Constant H) → α → Prop}

/-- Giving back a right value binds nothing. -/
theorem binds_pure {value : α} (correct : ∀ table, right table value)
    : Binds (pure value) reason right :=
  fun _ => .returned .unchanged fun table _ => correct table

/-- Neither does failing for a reason. -/
theorem binds_throw (fault : Fault) (because : reason) : Binds (throw fault) reason right :=
  fun _ => .faulted .unchanged because

/-- What follows on work may take it that the work's result is right. -/
theorem Binds.bind {after : List (Constant H) → β → Prop} (first : Binds work reason right)
    (each : ∀ value, Binds (next value) reason fun table result => right table value → after table result)
    : Binds (work >>= next) reason after := by
  intro bench
  have begun := first bench
  change Ended bench reason after (EStateM.bind work next bench)
  rw [EStateM.bind]
  generalize work bench = ending at begun ⊢
  cases begun with
  | @returned value between grown correct =>
      have continued := each value between
      change Ended bench reason after (next value between)
      generalize next value between = final at continued ⊢
      cases continued with
      | returned further result =>
          refine .returned (grown.trans further) fun table extended => ?_
          exact result table extended (correct table (further.keeps.trans extended))
      | faulted further because => exact .faulted (grown.trans further) because
  | faulted grown because => exact .faulted grown because

/-- Work that is right is so in a weaker sense, and for a wider reason. -/
theorem Binds.mono {wider : Prop} {weaker : List (Constant H) → α → Prop} (binds : Binds work reason right)
    (widen : reason → wider) (weaken : ∀ table value, right table value → weaker table value)
    : Binds work wider weaker := by
  intro bench
  have ended := binds bench
  generalize work bench = ending at ended ⊢
  cases ended with
  | returned grown correct =>
      exact .returned grown fun table extended => weaken table _ (correct table extended)
  | faulted grown because => exact .faulted grown (widen because)

/-- Work that fails for a reason fails for a wider one. -/
theorem Binds.widen {wider : Prop} (binds : Binds work reason right) (widen : reason → wider)
    : Binds work wider right :=
  binds.mono widen fun _ _ correct => correct

/-- A request for a name binds nothing, and fails only if the name is no identifier. -/
theorem binds_declare (base : Text)
    : Binds (declare base) (Name.isIdentifier base = false) fun (_ : List (Constant H)) _ => True := by
  intro bench
  rw [declare]
  rcases Name.Supply.request_cases bench.supply base with
    ⟨invalid, refused⟩ | ⟨_, mark, after, given, _⟩
  · rw [refused]
    exact .faulted .unchanged invalid
  · rw [given]
    exact .returned .unchanged fun _ _ => trivial

/-- A request for a constant gives a slot that holds it, by whether there was one before. -/
theorem binds_constant (wanted : Constant H)
    : Binds (constant wanted) reason fun table slot => Holds table slot wanted := by
  intro bench
  rcases constant_cases bench wanted with ⟨slot, found, holds⟩ | ⟨added, new⟩
  · rw [found]
    exact .returned .unchanged fun table extended => holds.mono extended
  · rw [added]
    refine .returned (.bound .unchanged new) fun table extended => ?_
    exact Holds.mono extended ⟨wanted, List.getElem?_concat_length, .itself wanted⟩

/-- Scopes have no part in the table. -/
theorem Binds.inScope (binds : Binds work reason right) : Binds (inScope work) reason right := by
  intro bench
  have ended := binds { bench with supply := bench.supply.openScope }
  rw [Emit.inScope]
  generalize work { bench with supply := bench.supply.openScope } = ending at ended ⊢
  cases ended with
  | returned grown correct => exact .returned grown correct
  | faulted grown because => exact .faulted grown because

/-- Work whose faults are caught keeps what it bound before a fault. -/
theorem Binds.attempt (binds : Binds work reason right) {other : Prop}
    : Binds (attempt work) other fun table result =>
        (∃ value, result = .ok value ∧ right table value) ∨ ∃ fault, result = .error fault ∧ reason := by
  intro bench
  have ended := binds bench
  rw [Emit.attempt]
  generalize work bench = ending at ended ⊢
  cases ended with
  | returned grown correct =>
      exact .returned grown fun table extended => .inl ⟨_, rfl, correct table extended⟩
  | faulted grown because => exact .returned grown fun _ _ => .inr ⟨_, rfl, because⟩

/-- Work that has no reason to fail returns. -/
theorem Binds.returns (binds : Binds work False right) (bench : Workbench H)
    : ∃ value after,
        work bench = .ok value after
        ∧ Grows bench.constants after.constants
        ∧ ∀ table, after.constants <+: table → right table value := by
  have ended := binds bench
  generalize work bench = ending at ended
  cases ended with
  | returned grown correct => exact ⟨_, _, rfl, grown, correct⟩
  | faulted _ because => exact because.elim

end Emit

end StagedParser
