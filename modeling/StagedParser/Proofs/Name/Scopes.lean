import StagedParser.Code.Layout
import StagedParser.Name.Script
import StagedParser.Proofs.Name.Texts

/-! Names that are requested in different scopes never meet.
A script of requests is followed step by step, through all scopes that it opens and also through those
that it abandons. Scopes are told apart by where they are opened in the script, not by their numbers.
Two requests then give one name exactly if they are for one base in one scope, and closing a scope
brings back the scopes as they were when it was opened.
-/

namespace StagedParser

namespace Name

-----------------------------------------------------------------------------------------
-- Logs of scripts
-----------------------------------------------------------------------------------------

/-- A step that was taken. Its place is empty outside of all scopes; otherwise it leads through the
script to the step that opened the innermost scope, by the numbers of steps among their neighbours. -/
structure Event where
  place : List Nat
  before : Supply
  step : Step
  reply : Except Fault Reply
  after : Supply

mutual

/-- The step itself and, if it opens a scope, the steps taken inside. `number` is its number among its
neighbours. -/
def Step.log (place : List Nat) (number : Nat) (supply : Supply) (step : Step) : List Event :=
  let (reply, after) := step.run supply
  ⟨place, supply, step, reply, after⟩ ::
    match step with
    | .scope steps => logSteps (place ++ [number]) 0 supply.openScope steps
    | _ => []

/-- The steps taken by a script, until one abandons it. -/
def logSteps (place : List Nat) (number : Nat) (supply : Supply) : List Step → List Event
  | [] => []
  | step :: rest =>
    step.log place number supply ++
      match step.run supply with
      | (.error _, _) => []
      | (.ok _, after) => logSteps place (number + 1) after rest

end

/-- A step that requested a name and was given one. -/
def Event.Grants (event : Event) (base : Text) (name : Name) : Prop :=
  event.step = .request base ∧ event.reply = .ok (.name name)

-----------------------------------------------------------------------------------------
-- What a script leaves of a supply
-----------------------------------------------------------------------------------------

namespace Supply

/-- The numbers of the open scopes, the innermost first. -/
def numbers (supply : Supply) : List Nat :=
  supply.scopes.map Scope.id

/-- A later state of a supply, with the same scopes open: nothing was counted back, and nothing was
requested in the outer scopes. -/
structure Later (earlier later : Supply) : Prop where
  scopeCount : earlier.scopeCount ≤ later.scopeCount
  looseCount : earlier.looseCount ≤ later.looseCount
  numbers : later.numbers = earlier.numbers
  outer : later.scopes.tail = earlier.scopes.tail

/-- A supply is later than itself. -/
theorem Later.refl (supply : Supply) : supply.Later supply :=
  ⟨Nat.le_refl _, Nat.le_refl _, rfl, rfl⟩

/-- What is later than a later supply is later. -/
theorem Later.trans {earlier between later : Supply} (first : earlier.Later between)
    (second : between.Later later)
    : earlier.Later later :=
  ⟨Nat.le_trans first.scopeCount second.scopeCount, Nat.le_trans first.looseCount second.looseCount,
    second.numbers.trans first.numbers, second.outer.trans first.outer⟩

/-- All that a request can do. -/
theorem request_cases (supply : Supply) (base : Text)
    : isIdentifier base = false ∧ supply.request base = .error (.badName base.json)
      ∨ isIdentifier base = true
        ∧ ∃ mark after,
            supply.request base = .ok (⟨mark, base⟩, after)
            ∧ supply.Later after
            ∧ (supply.numbers = []
                ∧ mark = .loose supply.looseCount
                ∧ after.looseCount = supply.looseCount + 1
              ∨ ∃ number outer, supply.numbers = number :: outer ∧ mark = .inScope number) := by
  cases valid : isIdentifier base with
  | false => exact .inl ⟨rfl, by simp [request, valid]⟩
  | true =>
      refine .inr ⟨rfl, ?_⟩
      cases opened : supply.scopes with
      | nil =>
          refine ⟨.loose supply.looseCount, { supply with looseCount := supply.looseCount + 1 }, ?_, ?_,
            .inl ⟨by simp [numbers, opened], rfl, rfl⟩⟩
          · simp [request, valid, opened]
          · exact ⟨Nat.le_refl _, Nat.le_succ _, rfl, rfl⟩
      | cons scope outer =>
          let bases := if base ∈ scope.bases then scope.bases else scope.bases ++ [base]
          refine ⟨.inScope scope.id, { supply with scopes := { scope with bases } :: outer }, ?_, ?_,
            .inr ⟨scope.id, outer.map Scope.id, by simp [numbers, opened], rfl⟩⟩
          · simp [request, valid, opened, bases]
          · exact ⟨Nat.le_refl _, Nat.le_refl _, by simp [numbers, opened], by simp [opened]⟩

end Supply

/-- Closing a scope brings back the open scopes, whether its steps were all taken or were abandoned. -/
theorem Step.run_scope (supply : Supply) (steps : List Step)
    : ((Step.scope steps).run supply).2 = (runSteps supply.openScope steps).2.returnTo supply := by
  rw [Step.run]
  generalize runSteps supply.openScope steps = result
  obtain ⟨fault | replies, after⟩ := result <;> rfl

mutual

/-- A step leaves the open scopes open and does nothing in the outer ones, by the kinds of steps. -/
theorem Step.later_run (supply : Supply) (step : Step) : supply.Later (step.run supply).2 := by
  cases step with
  | request base =>
      rw [Step.run]
      rcases supply.request_cases base with ⟨_, refused⟩ | ⟨_, mark, after, given, later, _⟩
      · rw [refused]
        exact .refl supply
      · rw [given]
        exact later
  | scope steps =>
      have inside := later_runSteps supply.openScope steps
      have opened : supply.scopeCount ≤ supply.openScope.scopeCount := Nat.le_succ _
      rw [Step.run_scope]
      exact ⟨Nat.le_trans opened inside.scopeCount, inside.looseCount, rfl, rfl⟩
  | verbatim | inScope | depth | scopeNames | abandon =>
      rw [Step.run]
      exact .refl supply

/-- Steps lead to a later supply, by the recursion over steps in scopes. -/
theorem later_runSteps (supply : Supply) (steps : List Step)
    : supply.Later (runSteps supply steps).2 := by
  cases steps with
  | nil =>
      rw [runSteps]
      exact .refl supply
  | cons step rest =>
      have first := step.later_run supply
      rw [runSteps]
      generalize step.run supply = result at first
      obtain ⟨fault | reply, after⟩ := result
      · exact first
      · exact first.trans (later_runSteps after rest)

end

-----------------------------------------------------------------------------------------
-- Where names come from
-----------------------------------------------------------------------------------------

/-- A supply at a place of a script: the scopes now open have numbers that were given out, and there
are none exactly if the place is outside of all scopes. -/
structure Supply.StandsAt (place : List Nat) (supply : Supply) : Prop where
  counted : ∀ number ∈ supply.numbers, number < supply.scopeCount
  outside : place = [] ↔ supply.numbers = []

/-- A later supply stands at the same place. -/
theorem Supply.StandsAt.later {place : List Nat} {supply after : Supply}
    (stands : supply.StandsAt place) (later : supply.Later after)
    : after.StandsAt place := by
  constructor
  · intro number member
    rw [later.numbers] at member
    exact Nat.lt_of_lt_of_le (stands.counted number member) later.scopeCount
  · rw [later.numbers]
    exact stands.outside

/-- Opening a scope leads one place further in. -/
theorem Supply.StandsAt.openScope {place : List Nat} {supply : Supply}
    (stands : supply.StandsAt place) (number : Nat)
    : supply.openScope.StandsAt (place ++ [number]) := by
  constructor
  · intro id member
    rcases List.mem_cons.mp member with rfl | outer
    · exact Nat.lt_succ_self _
    · exact Nat.lt_succ_of_lt (stands.counted id outer)
  · simp [numbers, Supply.openScope]

/-- The marks of names that are given at or below a place, by the steps from `number` up to `next`,
while the supply goes from one state to another: outside of all scopes they are counted, in the scope
of the place they have its number, and scopes further in have new numbers. -/
inductive Granted (place : List Nat) (number next : Nat) (supply after : Supply)
    : List Nat → Mark → Prop
  | loose {index : Nat} (outside : supply.numbers = []) (low : supply.looseCount ≤ index)
    (high : index < after.looseCount)
    : Granted place number next supply after place (.loose index)
  | here {scope : Nat} {outer : List Nat} (current : supply.numbers = scope :: outer)
    : Granted place number next supply after place (.inScope scope)
  | below {opener scope : Nat} {rest : List Nat} (start : number ≤ opener) (stop : opener < next)
    (low : supply.scopeCount ≤ scope) (high : scope < after.scopeCount)
    : Granted place number next supply after (place ++ opener :: rest) (.inScope scope)

section Granted

variable {place inner other : List Nat} {number middle next : Nat} {supply between after : Supply}
  {mark otherMark : Mark}

/-- A name that was granted was requested. -/
theorem Granted.requested (granted : Granted place number next supply after inner mark)
    : mark ≠ .verbatim := by
  cases granted <;> simp

/-- What is given by the first steps is given by all of them. -/
theorem Granted.extend (granted : Granted place number middle supply between inner mark)
    (more : middle ≤ next) (later : between.Later after)
    : Granted place number next supply after inner mark := by
  cases granted with
  | loose outside low high => exact .loose outside low (Nat.lt_of_lt_of_le high later.looseCount)
  | here current => exact .here current
  | below start stop low high =>
      exact .below start (Nat.lt_of_lt_of_le stop more) low (Nat.lt_of_lt_of_le high later.scopeCount)

/-- What is given by the last steps is given by all of them. -/
theorem Granted.precede (granted : Granted place middle next between after inner mark)
    (fewer : number ≤ middle) (later : supply.Later between)
    : Granted place number next supply after inner mark := by
  cases granted with
  | loose outside low high =>
      exact .loose (later.numbers.symm.trans outside) (Nat.le_trans later.looseCount low) high
  | here current => exact .here (later.numbers.symm.trans current)
  | below start stop low high =>
      exact .below (Nat.le_trans fewer start) stop (Nat.le_trans later.scopeCount low) high

/-- What is given inside a scope is given below the place where it was opened. -/
theorem Granted.enclose (granted : Granted (place ++ [number]) 0 next supply.openScope after inner mark)
    (later : supply.openScope.Later after)
    : Granted place number (number + 1) supply (after.returnTo supply) inner mark := by
  have counted : supply.scopeCount < after.scopeCount := later.scopeCount
  cases granted with
  | loose outside low high => cases outside
  | here current =>
      cases current
      exact .below (Nat.le_refl _) (Nat.lt_succ_self _) (Nat.le_refl _) counted
  | below start stop low high =>
      rw [List.append_assoc]
      exact .below (Nat.le_refl _) (Nat.lt_succ_self _) (Nat.le_of_succ_le low) high

/-- Of two names that are given by different steps, the marks are the same exactly if they are given
in the same scope. -/
theorem Granted.mark_eq_iff (stands : supply.StandsAt place) (later : supply.Later between)
    (first : Granted place number middle supply between inner mark)
    (second : Granted place middle next between after other otherMark)
    : mark = otherMark ↔ inner ≠ [] ∧ inner = other := by
  cases first with
  | loose outside low high =>
      have top := stands.outside.mpr outside
      cases second with
      | loose _ lowOther _ =>
          simp only [Mark.loose.injEq, top, ne_eq, not_true, false_and, iff_false]
          omega
      | here current => simp [top]
      | below => simp [top]
  | here current =>
      have deep : place ≠ [] := fun top => by
        rw [stands.outside.mp top] at current
        cases current
      have counted := stands.counted _ (by rw [current]; exact List.mem_cons_self)
      cases second with
      | loose outside _ _ =>
          rw [later.numbers, current] at outside
          cases outside
      | here currentOther =>
          rw [later.numbers, current] at currentOther
          cases currentOther
          simp [deep]
      | below _ _ low _ =>
          have beyond := Nat.lt_of_lt_of_le counted (Nat.le_trans later.scopeCount low)
          simp [Nat.ne_of_lt beyond]
  | below start stop low high =>
      cases second with
      | loose => simp
      | here current =>
          have counted := stands.counted _ (by rw [← later.numbers, current]; exact List.mem_cons_self)
          simp [Nat.ne_of_gt (Nat.lt_of_lt_of_le counted low)]
      | below startOther _ lowOther _ =>
          have opener := Nat.ne_of_lt (Nat.lt_of_lt_of_le stop startOther)
          simp [opener, Nat.ne_of_lt (Nat.lt_of_lt_of_le high lowOther)]

end Granted
-----------------------------------------------------------------------------------------
-- Names of a whole script
-----------------------------------------------------------------------------------------

/-- Two steps that are given names are given the same name exactly if both were taken in the same scope
and requested the same base. -/
def Event.Apart (left right : Event) : Prop :=
  ∀ base name other otherName,
    left.Grants base name
    → right.Grants other otherName
    → (name.text = otherName.text ↔ left.place ≠ [] ∧ left.place = right.place ∧ base = other)

/-- The log of the steps from `number` up to `next` at a place, and of the scopes that they open. -/
structure IsTold (place : List Nat) (number next : Nat) (supply after : Supply) (log : List Event)
    : Prop where
  granted
    : ∀ event ∈ log, ∀ base name,
        event.Grants base name
        → name.base = base
          ∧ isIdentifier base = true
          ∧ Granted place number next supply after event.place name.mark
  apart : log.Pairwise Event.Apart

/-- No events tell of no steps. -/
theorem IsTold.nil (place : List Nat) (number next : Nat) (supply after : Supply)
    : IsTold place number next supply after [] :=
  ⟨nofun, .nil⟩

/-- A step that gives no name may stand in front of a log. -/
theorem IsTold.cons {place : List Nat} {number next : Nat} {supply after : Supply} {event : Event}
    {log : List Event} (silent : ∀ base name, ¬ event.Grants base name)
    (told : IsTold place number next supply after log)
    : IsTold place number next supply after (event :: log) := by
  constructor
  · intro entry member base name grants
    rcases List.mem_cons.mp member with rfl | inside
    · exact absurd grants (silent base name)
    · exact told.granted entry inside base name grants
  · refine .cons ?_ told.apart
    intro entry _ base name _ _ grants
    exact absurd grants (silent base name)

/-- Logs of steps that follow each other stand apart. -/
theorem IsTold.append {place : List Nat} {number middle next : Nat} {supply between after : Supply}
    {log more : List Event} (stands : supply.StandsAt place) (reached : supply.Later between)
    (later : between.Later after) (start : number ≤ middle) (stop : middle ≤ next)
    (first : IsTold place number middle supply between log)
    (second : IsTold place middle next between after more)
    : IsTold place number next supply after (log ++ more) := by
  constructor
  · intro event member base name grants
    rcases List.mem_append.mp member with inside | inside
    · obtain ⟨same, valid, granted⟩ := first.granted event inside base name grants
      exact ⟨same, valid, granted.extend stop later⟩
    · obtain ⟨same, valid, granted⟩ := second.granted event inside base name grants
      exact ⟨same, valid, granted.precede start reached⟩
  · refine List.pairwise_append.mpr ⟨first.apart, second.apart, ?_⟩
    intro left leftMember right rightMember base name other otherName leftGrants rightGrants
    obtain ⟨rfl, _, leftGranted⟩ := first.granted left leftMember base name leftGrants
    obtain ⟨rfl, _, rightGranted⟩ := second.granted right rightMember other otherName rightGrants
    have marks := leftGranted.mark_eq_iff stands reached rightGranted
    constructor
    · intro same
      obtain rfl := eq_of_text_eq leftGranted.requested rightGranted.requested same
      exact ⟨(marks.mp rfl).1, (marks.mp rfl).2, rfl⟩
    · rintro ⟨deep, places, bases⟩
      have same : name = otherName :=
        congr (congrArg Name.mk (marks.mpr ⟨deep, places⟩)) bases
      rw [same]

/-- A request gives at most one name, that of its base. -/
theorem isTold_request {place : List Nat} {supply : Supply} (number : Nat) (base : Text)
    : IsTold place number (number + 1) supply ((Step.request base).run supply).2
        ((Step.request base).log place number supply) := by
  simp only [Step.log, Step.run]
  refine ⟨?_, List.pairwise_singleton _ _⟩
  intro event member requested name grants
  rcases supply.request_cases base with ⟨_, refused⟩ | ⟨valid, mark, after, given, _, marked⟩
  · simp only [refused, List.mem_singleton] at member
    subst member
    cases grants.2
  · simp only [given, List.mem_singleton] at member ⊢
    subst member
    obtain ⟨sameStep, sameReply⟩ := grants
    cases sameStep
    cases sameReply
    refine ⟨rfl, valid, ?_⟩
    rcases marked with ⟨outside, rfl, counted⟩ | ⟨scope, outer, current, rfl⟩
    · exact .loose outside (Nat.le_refl _) (by omega)
    · exact .here current

mutual

/-- By the kinds of steps: what is given inside a scope is given below the step that opens it. -/
theorem Step.isTold_log {place : List Nat} {supply : Supply} (stands : supply.StandsAt place)
    (number : Nat) (step : Step)
    : IsTold place number (number + 1) supply (step.run supply).2 (step.log place number supply) := by
  cases step with
  | request base => exact isTold_request number base
  | scope steps =>
      have inside := isTold_logSteps (stands.openScope number) 0 steps
      have later := later_runSteps supply.openScope steps
      rw [Step.log, Step.run_scope]
      refine .cons ?_ ⟨?_, inside.apart⟩
      · intro base name grants
        cases grants.1
      · intro event member base name grants
        obtain ⟨same, valid, granted⟩ := inside.granted event member base name grants
        exact ⟨same, valid, granted.enclose later⟩
  | verbatim | inScope | depth | scopeNames | abandon =>
      simp only [Step.log]
      refine .cons ?_ (.nil ..)
      intro base name grants
      cases grants.1

/-- By induction on the script: the rest of it starts where its first step ended. -/
theorem isTold_logSteps {place : List Nat} {supply : Supply} (stands : supply.StandsAt place)
    (number : Nat) (steps : List Step)
    : IsTold place number (number + steps.length) supply (runSteps supply steps).2
        (logSteps place number supply steps) := by
  cases steps with
  | nil =>
      rw [logSteps]
      exact .nil ..
  | cons step rest =>
      have first := step.isTold_log stands number
      have reached := step.later_run supply
      rw [logSteps, runSteps]
      generalize step.run supply = result at first reached
      obtain ⟨fault | reply, after⟩ := result
      · exact .append stands reached (.refl after) (Nat.le_succ number) (by simp) first (.nil ..)
      · have others := isTold_logSteps (stands.later reached) (number + 1) rest
        rw [Nat.add_assoc, Nat.add_comm 1] at others
        exact .append stands reached (later_runSteps after rest) (Nat.le_succ number) (by simp) first
          others

end

-----------------------------------------------------------------------------------------
-- Single steps
-----------------------------------------------------------------------------------------

/-- An identifier may go on with units that identifiers have. -/
theorem isIdentifier_append {base more : Text} (valid : isIdentifier base = true)
    (parts : ∀ unit ∈ more, isPartUnit unit = true)
    : isIdentifier (base ++ more) = true := by
  cases base with
  | nil => cases valid
  | cons first rest =>
      simp only [isIdentifier, Bool.and_eq_true, List.cons_append, List.all_append] at valid ⊢
      exact ⟨valid.1, valid.2, List.all_eq_true.mpr parts⟩

/-- The text of a requested name is an identifier. Witness: it continues its base with an underscore,
perhaps a letter, and digits. -/
theorem isIdentifier_text {name : Name} (requested : name.mark ≠ .verbatim)
    (valid : isIdentifier name.base = true)
    : isIdentifier name.text = true := by
  rw [text_of_requested requested]
  refine isIdentifier_append valid ?_
  intro unit member
  rcases List.mem_cons.mp member with rfl | inside
  · rfl
  · rcases Mark.mem_suffix inside with rfl | digit
    · rfl
    · simp [isPartUnit, digit]

/-- The names that generated code keeps for itself. -/
def reserved : List Text :=
  [Code.contextName, Code.resultName, Code.constantsName]

/-- What is true of every step that was taken: requests of identifiers are given identifiers, other
requests are refused and change nothing, and after a scope the scopes are those from before it. They
were so already while the steps inside were taken, around the new scope. -/
structure Event.IsClean (event : Event) : Prop where
  taken : event.step.run event.before = (event.reply, event.after)
  given
    : ∀ base,
        event.step = .request base
        → isIdentifier base = true
        → ∃ name, event.Grants base name ∧ isIdentifier name.text = true ∧ name.text ∉ reserved
  refused
    : ∀ base,
        event.step = .request base
        → isIdentifier base = false
        → event.reply = .ok (.fault (.badName base.json)) ∧ event.after = event.before
  closed
    : ∀ steps,
        event.step = .scope steps
        → event.after.scopes = event.before.scopes
          ∧ ∃ bases,
              (runSteps event.before.openScope steps).2.scopes
              = ⟨event.before.scopeCount, bases⟩ :: event.before.scopes

mutual

/-- A log tells how its steps were taken, by the kinds of steps. -/
theorem Step.taken_of_mem_log {place : List Nat} {number : Nat} {supply : Supply} {step : Step}
    {event : Event} (member : event ∈ step.log place number supply)
    : event.step.run event.before = (event.reply, event.after) := by
  cases step with
  | scope steps =>
      rw [Step.log] at member
      rcases List.mem_cons.mp member with rfl | inside
      · rfl
      · exact taken_of_mem_logSteps inside
  | request | verbatim | inScope | depth | scopeNames | abandon =>
      simp only [Step.log, List.mem_singleton] at member
      subst member
      rfl

/-- Every event of the log tells of a step that was taken so, by the recursion over steps in
scopes. -/
theorem taken_of_mem_logSteps {place : List Nat} {number : Nat} {supply : Supply}
    {steps : List Step} {event : Event} (member : event ∈ logSteps place number supply steps)
    : event.step.run event.before = (event.reply, event.after) := by
  cases steps with
  | nil =>
      rw [logSteps] at member
      cases member
  | cons step rest =>
      rw [logSteps] at member
      rcases List.mem_append.mp member with inside | later
      · exact step.taken_of_mem_log inside
      · generalize step.run supply = result at later
        obtain ⟨fault | reply, after⟩ := result
        · cases later
        · exact taken_of_mem_logSteps later

end

/-- Steps inside a scope name nothing outside of it. -/
theorem scopes_runSteps_openScope (supply : Supply) (steps : List Step)
    : ∃ bases,
        (runSteps supply.openScope steps).2.scopes = ⟨supply.scopeCount, bases⟩ :: supply.scopes := by
  have later := later_runSteps supply.openScope steps
  have numbers := later.numbers
  have outer := later.outer
  rw [Supply.numbers] at numbers
  generalize (runSteps supply.openScope steps).2.scopes = scopes at numbers outer
  cases scopes with
  | nil => cases numbers
  | cons scope rest =>
      obtain rfl : rest = supply.scopes := outer
      obtain ⟨number, bases⟩ := scope
      obtain rfl : number = supply.scopeCount := (List.cons.inj numbers).1
      exact ⟨bases, rfl⟩

/-- A step that was taken as told is clean, by what a request can do and what a scope leaves. -/
theorem Event.isClean_of_taken {event : Event}
    (taken : event.step.run event.before = (event.reply, event.after))
    : event.IsClean := by
  obtain ⟨place, before, step, reply, after⟩ := event
  refine ⟨taken, ?_, ?_, ?_⟩
  · rintro base rfl valid
    rcases before.request_cases base with ⟨invalid, _⟩ | ⟨_, mark, rest, given, _, marked⟩
    · rw [valid] at invalid
      cases invalid
    · simp only [Step.run, given, Prod.mk.injEq] at taken
      obtain ⟨rfl, rfl⟩ := taken
      have requested : mark ≠ .verbatim := by
        rcases marked with ⟨_, rfl, _⟩ | ⟨_, _, _, rfl⟩ <;> simp
      exact ⟨⟨mark, base⟩, ⟨rfl, rfl⟩, isIdentifier_text requested valid,
        text_not_mem_of_requested requested (by decide)⟩
  · rintro base rfl invalid
    rcases before.request_cases base with ⟨_, refused⟩ | ⟨valid, _⟩
    · simp only [Step.run, refused, Prod.mk.injEq] at taken
      exact ⟨taken.1.symm, taken.2.symm⟩
    · rw [invalid] at valid
      cases valid
  · rintro steps rfl
    have ended := Step.run_scope before steps
    rw [taken] at ended
    obtain rfl : after = _ := ended
    exact ⟨rfl, scopes_runSteps_openScope before steps⟩

/-- Whatever a script does with a new supply, two of its requests are given the same name exactly if
they are for the same base in the same scope, and every step is clean. -/
theorem apart_and_clean_of_script (steps : List Step)
    : (logSteps [] 0 {} steps).Pairwise Event.Apart
      ∧ ∀ event ∈ logSteps [] 0 {} steps, event.IsClean := by
  have fresh : ({} : Supply).StandsAt [] := ⟨nofun, by simp [Supply.numbers]⟩
  constructor
  · exact (isTold_logSteps fresh 0 steps).apart
  · intro event member
    exact Event.isClean_of_taken (taken_of_mem_logSteps member)

/-- Requests inside and outside of scopes, for bases that look like names given to others, in a scope
that goes on after one inside it was abandoned, and one that is refused. -/
def sampleScript : List Step :=
  let a := Text.ofString "a"
  [ .request a,
    .scope [.request a, .scope [.request a, .abandon, .request a], .request a],
    .scope [.request (Text.ofString "a_0"), .request a],
    .request (Text.ofString "a_g0"),
    .request (Text.ofString "1x") ]

/-- The texts of the names given by the sample, with where they were requested. -/
theorem apart_and_clean_of_script_sample
    : (logSteps [] 0 {} sampleScript).filterMap (fun event =>
          match event.reply with
          | .ok (.name name) => some (event.place, name.text)
          | _ => none)
        = [ ([], Text.ofString "a_g0"), ([1], Text.ofString "a_0"), ([1, 1], Text.ofString "a_1"),
            ([1], Text.ofString "a_0"), ([2], Text.ofString "a_0_2"), ([2], Text.ofString "a_2"),
            ([], Text.ofString "a_g0_g1") ]
      ∧ (logSteps [] 0 {} sampleScript).Pairwise Event.Apart
      ∧ ∀ event ∈ logSteps [] 0 {} sampleScript, event.IsClean :=
  ⟨by decide +kernel, apart_and_clean_of_script sampleScript⟩

end Name

end StagedParser
