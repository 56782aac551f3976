import StagedParser.Proofs.Staging.Outcome

/-! Staged parsers agree with the grammars they were staged from.
Where all parties keep the contract, the two ways of parsing end the same in every respect. Where
parsers from outside only ignore their record, and the entry hook does what it likes, they still give
the same verdict or fault, leave the same cursor and the same notes, and yield the same value.
-/

namespace StagedParser

open Parsing

variable {H : Host} {σ : Type}

/-- Under a still hook, the program of an unscripted grammar whose parsers from outside keep the
contract does exactly what interpreting the grammar does, and so does the parser that staging the
grammar returns, with code generation on or off: verdict or fault, cursor, record and notes are the
same from every scene. Witness: both are the report of the grammar's meaning. -/
theorem Grammar.stage_parse_eq_parse {hook : Hook σ} (still : hook.Still) (grammar : Grammar H)
    (unscripted : grammar.Unscripted) (foreigns : grammar.ForeignsSatisfy hook KeepsContract)
    (id : Nat) {desk : Desk} {options : Settings.CodeOptions} {settings : Settings}
    (read : Settings.codeOptions desk.settings = .ok options settings)
    : (∃ program,
        grammar.program = .ok program
        ∧ ∀ scene, program.run hook grammar.name scene = grammar.parse hook scene)
      ∧ ∃ after,
          grammar.stage id desk = .ok (.staged id grammar options.enabled) after
          ∧ ∀ scene,
              (Grammar.staged id grammar options.enabled).parse hook scene
              = grammar.parse hook scene := by
  have same := grammar.report_meaning_eq_parse still unscripted foreigns
  obtain ⟨program, generated, reports⟩ := program_reports unscripted
  obtain ⟨after, staged⟩ := grammar.stage_of_unscripted unscripted id read
  refine ⟨⟨program, generated, fun scene => ?_⟩, after, staged, fun scene => ?_⟩
  · rw [reports, same]
  · cases options.enabled with
    | true => rw [parse_staged id unscripted, same]
    | false => rw [parse]

/-- Staging the sample of the stock with two honest parsers, under a hook that stops at the pattern. -/
theorem Grammar.stage_parse_eq_parse_sample
    : let hook := Stock.strictHook 9 []
      let grammar := Stock.sample (.overrun 2) (.take 1)
      hook.Still
      ∧ grammar.Unscripted
      ∧ grammar.ForeignsSatisfy hook KeepsContract
      ∧ ∃ after,
          grammar.stage 10 {} = .ok (.staged 10 grammar true) after
          ∧ ∀ scene, (Grammar.staged 10 grammar true).parse hook scene = grammar.parse hook scene := by
  intro hook grammar
  have still : hook.Still := Hook.still_of_moves_eq_nil fun _ _ _ => rfl
  have unscripted : grammar.Unscripted := Stock.sample_unscripted _ _
  have foreigns : grammar.ForeignsSatisfy hook KeepsContract :=
    Stock.sample_foreigns (Stock.keepsContract_conduct still _ rfl)
      (Stock.keepsContract_conduct still _ rfl)
  have read : Settings.codeOptions ({} : Desk).settings = .ok ⟨true, false⟩ _ := rfl
  exact ⟨still, unscripted, foreigns,
    (stage_parse_eq_parse still grammar unscripted foreigns 10 read).2⟩

/-- Whatever the entry hook does, and as long as the parsers from outside ignore their record, the
program of an unscripted grammar and the parser that staging it returns agree with interpreting it:
the same verdict or fault, cursor and notes, and the same value, which they report from where the
cursor stood to where it stands. -/
theorem Grammar.stage_agrees_with_parse (hook : Hook σ) (grammar : Grammar H)
    (unscripted : grammar.Unscripted) (foreigns : grammar.ForeignsSatisfy hook IgnoresRecord)
    (id : Nat) {desk : Desk} {options : Settings.CodeOptions} {settings : Settings}
    (read : Settings.codeOptions desk.settings = .ok options settings)
    (enabled : options.enabled = true)
    : (∃ program,
        grammar.program = .ok program
        ∧ ∀ scene record,
            Ending.Agree scene.cursor.position (grammar.parse hook scene)
              (program.run hook grammar.name { scene with record }))
      ∧ ∃ after,
          grammar.stage id desk = .ok (.staged id grammar true) after
          ∧ ∀ scene record,
              Ending.Agree scene.cursor.position (grammar.parse hook scene)
                ((Grammar.staged id grammar true).parse hook { scene with record }) := by
  obtain ⟨ignores, yields⟩ := grammar.interpreted_of_unscripted hook unscripted foreigns
  obtain ⟨program, generated, reports⟩ := program_reports unscripted
  obtain ⟨after, staged⟩ := grammar.stage_of_unscripted unscripted id read
  rw [enabled] at staged
  refine ⟨⟨program, generated, fun scene record => ?_⟩, after, staged, fun scene record => ?_⟩
  · rw [reports, ← yields]
    exact ignores.agree_report scene record
  · rw [parse_staged id unscripted, ← yields]
    exact ignores.agree_report scene record

/-- Staging the sample of the stock with a parser that leaves stale records and one that lies, under a
hook that moves the cursor and stops at the pattern. -/
theorem Grammar.stage_agrees_with_parse_sample
    : let hook := Stock.strictHook 9 [.advance 1]
      let grammar := Stock.sample (.stale 1) (.liar 1)
      grammar.Unscripted
      ∧ grammar.ForeignsSatisfy hook IgnoresRecord
      ∧ ∃ after,
          grammar.stage 10 {} = .ok (.staged 10 grammar true) after
          ∧ ∀ scene record,
              Ending.Agree scene.cursor.position (grammar.parse hook scene)
                ((Grammar.staged 10 grammar true).parse hook { scene with record }) := by
  intro hook grammar
  have unscripted : grammar.Unscripted := Stock.sample_unscripted _ _
  have foreigns : grammar.ForeignsSatisfy hook IgnoresRecord :=
    Stock.sample_foreigns (Stock.ignoresRecord_conduct hook _ (by simp))
      (Stock.ignoresRecord_conduct hook _ (by simp))
  have read : Settings.codeOptions ({} : Desk).settings = .ok ⟨true, false⟩ _ := rfl
  exact ⟨unscripted, foreigns,
    (stage_agrees_with_parse hook grammar unscripted foreigns 10 read rfl).2⟩

end StagedParser
