import StagedParser.Proofs.Code.Generated
import StagedParser.Proofs.Settings.Layers
import StagedParser.Proofs.Stock.Contract
import StagedParser.Staging

/-! What staging a grammar comes to.
Once the options of code generation could be read, staging an unscripted grammar cannot fail: its
code is there, it can be read, and logging only looks at settings that are loaded by then.
-/

namespace StagedParser

open Code

namespace Settings

variable {settings after : Settings}

/-- A load that works leaves settings loaded. -/
theorem loaded_of_ensureLoaded {directory : Option Text}
    (ensured : ensureLoaded directory settings = .ok () after)
    : after.loaded = true := by
  cases loaded : settings.loaded with
  | true =>
      rw [ensureLoaded_of_loaded loaded] at ensured
      cases ensured
      exact loaded
  | false =>
      rw [ensureLoaded_of_unloaded loaded] at ensured
      cases found : loadFile directory settings with
      | error fault later =>
          rw [found] at ensured
          cases ensured
      | ok file later =>
          rw [found] at ensured
          cases file with
          | error fault => cases ensured
          | ok fields =>
              cases ensured
              rfl

/-- A look-up that answers leaves settings loaded. -/
theorem loaded_of_get {path : Text} {seen : Seen} (read : get path settings = .ok seen after)
    : after.loaded = true := by
  obtain ⟨fields, between, readAll, continued⟩ := of_run_bind read
  obtain ⟨_, later, ensured, rest⟩ := of_run_bind readAll
  have loaded := loaded_of_ensureLoaded ensured
  have same : later = between := (EStateM.Result.ok.inj rest).2
  have kept : between = after := (EStateM.Result.ok.inj continued).2
  rwa [← kept, ← same]

/-- Loaded settings can be read, and stay as they are. -/
theorem get_of_loaded (loaded : settings.loaded = true) (path : Text)
    : ∃ seen, get path settings = .ok seen settings :=
  ⟨_, run_bind_ok (run_bind_ok (ensureLoaded_of_loaded loaded none))⟩

/-- Where settings are loaded, it is answered whether debugging is on, by what is seen. -/
theorem isDebug_of_loaded (loaded : settings.loaded = true)
    : ∃ on, isDebug settings = .ok on settings := by
  obtain ⟨seen, read⟩ := get_of_loaded loaded (Text.ofString "debug")
  rw [isDebug, run_bind_ok read]
  cases seen with
  | value value => cases value <;> exact ⟨_, rfl⟩
  | method => exact ⟨false, rfl⟩
  | root => exact ⟨false, rfl⟩

/-- Options for code that are answered leave settings loaded. -/
theorem loaded_of_codeOptions {options : CodeOptions}
    (read : codeOptions settings = .ok options after)
    : after.loaded = true := by
  rw [codeOptions_eq] at read
  obtain ⟨enabled, between, _, continued⟩ := of_run_bind read
  obtain ⟨dumpSource, later, found, ended⟩ := of_run_bind continued
  cases ended
  exact loaded_of_get found

end Settings

namespace Desk

/-- Logging at a desk with loaded settings works, and leaves the settings as they are. -/
theorem log_eq {desk : Desk} (loaded : desk.settings.loaded = true) (scope : Value) (level : Log.Level)
    (message : Value) (details : List Value)
    : ∃ lines, log scope level message details desk = .ok () { desk with lines } := by
  cases level with
  | debug =>
      obtain ⟨on, read⟩ := Settings.isDebug_of_loaded loaded
      have accessed : access Settings.isDebug desk = .ok on desk := by
        simp only [access, read]
      rw [log, run_bind_ok accessed]
      cases on with
      | true => exact ⟨_, rfl⟩
      | false => exact ⟨desk.lines, rfl⟩
  | _ => exact ⟨_, rfl⟩

end Desk

/-- Staging an unscripted grammar returns the staged parser that the options ask for. -/
theorem Grammar.stage_of_unscripted {H : Host} (grammar : Grammar H) (unscripted : grammar.Unscripted)
    (id : Nat) {desk : Desk} {options : Settings.CodeOptions} {settings : Settings}
    (read : Settings.codeOptions desk.settings = .ok options settings)
    : ∃ after, grammar.stage id desk = .ok (.staged id grammar options.enabled) after := by
  obtain ⟨program, generated, formed⟩ := grammar.program_wellFormed unscripted
  have readable : program.isReadable = true := formed.formed.areReadable
  have loaded (lines : List Log.Line) : (Desk.mk settings lines).settings.loaded = true :=
    Settings.loaded_of_codeOptions read
  have accessed : Desk.access Settings.codeOptions desk = .ok options { desk with settings } := by
    simp only [Desk.access, read]
  obtain ⟨enabled, dumpSource⟩ := options
  rw [stage, run_bind_ok accessed]
  cases enabled with
  | false =>
      obtain ⟨lines, logged⟩ := Desk.log_eq (loaded desk.lines) stagingScope .debug
        (.text (Text.ofString "code generation disabled; " ++ grammar.name ++
          Text.ofString " stays interpreted")) []
      exact ⟨_, run_bind_ok logged⟩
  | true =>
      obtain ⟨lines, logged⟩ := Desk.log_eq (loaded desk.lines) stagingScope .debug
        (.text (program.summary grammar.name)) []
      simp only [generated, readable, Bool.not_true, Bool.false_eq_true, if_false, if_true]
      rw [run_bind_ok logged]
      cases dumpSource with
      | false => exact ⟨_, rfl⟩
      | true =>
          obtain ⟨more, dumped⟩ := Desk.log_eq (loaded lines) stagingScope .info
            (.text (Text.ofString "generated code for " ++ grammar.name ++ Text.ofString ":\n" ++
              program.text)) []
          exact ⟨_, run_bind_ok dumped⟩

/-- With code generation on, staging an unscripted grammar returns, and the program that the staged
parser runs is well formed: a run of it ends with one of the two flags or stops where its own
statements stop, so there is never an answer of another kind to complain about. -/
theorem Grammar.stage_generates_wellFormed {H : Host} (grammar : Grammar H)
    (unscripted : grammar.Unscripted)
    : ∃ program,
        grammar.program = .ok program
        ∧ program.WellFormed
        ∧ (∀ (σ : Type) (hook : Hook σ) (scene : Scene σ),
            (∃ matched after,
              answer hook program.table program.code scene = .ok (.value (.flag matched)) after
              ∧ program.run hook grammar.name scene = .ok matched after)
            ∨ ∃ fault after,
                answer hook program.table program.code scene = .error fault after
                ∧ program.run hook grammar.name scene = .error fault after)
        ∧ ∀ id desk options settings,
            Settings.codeOptions desk.settings = .ok options settings
            → options.enabled = true
            → ∃ staged after,
                grammar.stage id desk = .ok staged after
                ∧ staged.source? = some grammar
                ∧ staged.codeText? = some program.text := by
  obtain ⟨program, generated, formed⟩ := grammar.program_wellFormed unscripted
  refine ⟨program, generated, formed, fun σ hook scene => formed.run_eq hook grammar.name scene, ?_⟩
  intro id desk options settings read enabled
  obtain ⟨after, staged⟩ := grammar.stage_of_unscripted unscripted id read
  rw [enabled] at staged
  exact ⟨_, after, staged, rfl, by simp only [codeText?, generated]⟩

/-- The program of the sample of the stock is well formed, and staging it returns. -/
theorem Grammar.stage_generates_wellFormed_sample
    : let grammar := Stock.sample (.stale 1) (.take 1)
      grammar.Unscripted
      ∧ ∃ program,
          grammar.program = .ok program
          ∧ program.WellFormed
          ∧ ∃ staged after,
              grammar.stage 10 {} = .ok staged after ∧ staged.codeText? = some program.text := by
  intro grammar
  have unscripted : grammar.Unscripted := Stock.sample_unscripted _ _
  obtain ⟨program, generated, formed, _, stages⟩ :=
    stage_generates_wellFormed grammar unscripted
  obtain ⟨staged, after, ran, _, text⟩ := stages 10 {} ⟨true, false⟩ _ rfl rfl
  exact ⟨unscripted, program, generated, formed, staged, after, ran, text⟩

end StagedParser
