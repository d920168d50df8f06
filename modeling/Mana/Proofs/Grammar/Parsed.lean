import Mana.Proofs.Grammar.Ensured

/-! What is parsed of a stream: its first statement, and what is parsed from behind that on. -/
namespace Mana

open Parse

theorem Parse.collect_done {round : Parse (Gain α)} (passes : GainsPass round)
    (each : ∀ stream, ∃ gain rest found, round.run stream = ⟨.done gain, rest, found⟩) (stream : TokenStream) :
    ∃ items rest found, (collect round).run stream = ⟨.done items, rest, found⟩ := by
  induction stream using TokenStream.induct with
  | fewer stream ih =>
    obtain ⟨gain, rest, found, ran⟩ := each stream
    have passed := passes ran
    rw [run_collect, ran, Step.andThen_done]
    cases gain with
    | stop => exact ⟨_, _, _, rfl⟩
    | nothing =>
      have shorter : rest.count < stream.count := passed
      obtain ⟨items, last, later, collected⟩ := ih rest shorter
      simp only [shorter, ↓reduceIte, collected]
      exact ⟨_, _, _, rfl⟩
    | item value =>
      obtain ⟨items, last, later, collected⟩ := ih rest passed.2
      simp only [passed.2, ↓reduceIte, collected]
      exact ⟨_, _, _, rfl⟩

namespace Grammar

theorem Program.round_concludes (nested : Nested) (stream : TokenStream) :
    ∃ gain rest found, (programRound nested).run stream = ⟨.done gain, rest, found⟩ := by
  by_cases ended : stream.current.kind = .eof
  · exact ⟨_, _, _, round_ended ended⟩
  rcases ran : (statement nested).run stream with ⟨outcome, rest, found⟩
  cases outcome with
  | done node => exact ⟨_, _, _, round_done ended ran⟩
  | failed => exact ⟨_, _, _, round_failed ended ran⟩
  | struck => exact ⟨_, _, _, round_struck ended ran⟩

end Grammar

namespace Parsed

open Grammar

/-- Nothing that was parsed strikes the limit on nesting. -/
def Unstruck (parsed : Parsed) : Prop := ∀ diagnostic ∈ parsed.diagnostics, diagnostic.fault ≠ .tooDeep

instance (parsed : Parsed) : Decidable parsed.Unstruck :=
  inferInstanceAs (Decidable (∀ diagnostic ∈ parsed.diagnostics, diagnostic.fault ≠ .tooDeep))

theorem Unstruck.of_nil {parsed : Parsed} (clear : parsed.diagnostics = []) : parsed.Unstruck := by
  simp [Unstruck, clear]

theorem Unstruck.of_append {parsed later : Parsed} (unstruck : parsed.Unstruck)
    (split : parsed.diagnostics = found ++ later.diagnostics) : later.Unstruck :=
  fun diagnostic member => unstruck diagnostic (split ▸ List.mem_append_right found member)

variable {limit : Nat} {stream rest : TokenStream} {found : List Diagnostic} {node : Node}

/-- A program comes to an end of its own. -/
theorem run_ofStream (limit : Nat) (stream : TokenStream) :
    (Grammar.program (expression .standard limit)).run stream =
      ⟨.done (ofStream limit stream).program, (ofStream limit stream).rest, (ofStream limit stream).diagnostics⟩ := by
  have passes : GainsPass (programRound (expression .standard limit)) := fun _ _ _ _ ran =>
    ((expression_ensures limit).programRound ran).2
  obtain ⟨statements, rest, found, collected⟩ := collect_done passes (Program.round_concludes _) stream
  have ran : (Grammar.program (expression .standard limit)).run stream =
      ⟨.done (.program (some stream.current) statements), rest, found ++ []⟩ := run_bind_done collected _
  rw [ofStream, ran]

theorem run_statements (limit : Nat) (stream : TokenStream) :
    (collect (programRound (expression .standard limit))).run stream =
      ⟨.done (ofStream limit stream).program.statements, (ofStream limit stream).rest,
        (ofStream limit stream).diagnostics⟩ := by
  have ran := run_ofStream limit stream
  rw [Grammar.program, run_current_bind] at ran
  obtain ⟨statements, rest, own, later, collected, done, split⟩ := bind_done_cases ran
  simp only [run_pure, Step.mk.injEq, Outcome.done.injEq] at done
  obtain ⟨tree, left, rfl⟩ := done
  rw [collected, ← tree, ← left, split, List.append_nil]
  rfl

/-- A program keeps the first token of all. -/
theorem program_eq (limit : Nat) (stream : TokenStream) :
    (ofStream limit stream).program = .program (some stream.current) (ofStream limit stream).program.statements := by
  have ran : (Grammar.program (expression .standard limit)).run stream = ⟨.done (.program (some stream.current)
      (ofStream limit stream).program.statements), (ofStream limit stream).rest,
      (ofStream limit stream).diagnostics ++ []⟩ := run_bind_done (run_statements limit stream) _
  exact Outcome.done.inj (congrArg Step.outcome ((run_ofStream limit stream).symm.trans ran))

/-- A program is parsed up to the end of the tokens. -/
theorem program_ended (limit : Nat) (stream : TokenStream) : (ofStream limit stream).rest.current.kind = .eof :=
  collect_stopped (fun _ _ _ => Program.round_stopped) (run_statements limit stream)

theorem run_of_ended (limit : Nat) (ended : stream.current.kind = .eof) :
    (ofStream limit stream).program.statements = [] ∧ (ofStream limit stream).rest = stream ∧
      (ofStream limit stream).diagnostics = [] := by
  have run := (run_statements limit stream).symm.trans (Program.run_ended ended)
  simpa only [Step.mk.injEq, Outcome.done.injEq] using run

theorem ofStream_ended (limit : Nat) (ended : stream.current.kind = .eof) :
    (ofStream limit stream).program.statements = [] ∧ (ofStream limit stream).diagnostics = [] :=
  ⟨(run_of_ended limit ended).1, (run_of_ended limit ended).2.2⟩

section

variable {gain : Gain Node}
  (ran : (programRound (expression .standard limit)).run stream = ⟨.done gain, rest, found⟩)
include ran

theorem round_passes : Gain.Passes (fun _ => True) stream gain rest := ((expression_ensures limit).programRound ran).2

theorem round_within : rest.Within stream := ((expression_ensures limit).programRound ran).1

end

/-- A round that finds a statement is the first one of the parse from there. -/
theorem run_of_item
    (ran : (programRound (expression .standard limit)).run stream = ⟨.done (.item node), rest, found⟩) :
    (ofStream limit stream).program.statements = node :: (ofStream limit rest).program.statements ∧
      (ofStream limit stream).rest = (ofStream limit rest).rest ∧
      (ofStream limit stream).diagnostics = found ++ (ofStream limit rest).diagnostics := by
  have run := run_collect (programRound (expression .standard limit)) stream
  rw [ran, Step.andThen_done] at run
  simp only [(round_passes ran).2, ↓reduceIte] at run
  rw [run_statements, run_statements] at run
  simpa only [Step.map, Step.since, Step.mk.injEq, Outcome.done.injEq] using run

theorem run_of_nothing
    (ran : (programRound (expression .standard limit)).run stream = ⟨.done .nothing, rest, found⟩) :
    (ofStream limit stream).program.statements = (ofStream limit rest).program.statements ∧
      (ofStream limit stream).rest = (ofStream limit rest).rest ∧
      (ofStream limit stream).diagnostics = found ++ (ofStream limit rest).diagnostics := by
  have shorter : rest.count < stream.count := round_passes ran
  have run := run_collect (programRound (expression .standard limit)) stream
  rw [ran, Step.andThen_done] at run
  simp only [shorter, ↓reduceIte] at run
  rw [run_statements, run_statements] at run
  simpa only [Step.since, Step.mk.injEq, Outcome.done.injEq] using run

theorem ofStream_item
    (ran : (programRound (expression .standard limit)).run stream = ⟨.done (.item node), rest, found⟩) :
    (ofStream limit stream).program.statements = node :: (ofStream limit rest).program.statements ∧
      (ofStream limit stream).diagnostics = found ++ (ofStream limit rest).diagnostics :=
  ⟨(run_of_item ran).1, (run_of_item ran).2.2⟩

theorem ofStream_nothing
    (ran : (programRound (expression .standard limit)).run stream = ⟨.done .nothing, rest, found⟩) :
    (ofStream limit stream).program.statements = (ofStream limit rest).program.statements ∧
      (ofStream limit stream).diagnostics = found ++ (ofStream limit rest).diagnostics :=
  ⟨(run_of_nothing ran).1, (run_of_nothing ran).2.2⟩

variable (going : stream.current.kind ≠ .eof)
include going

theorem ofStream_done (ran : (statement (expression .standard limit)).run stream = ⟨.done node, rest, found⟩) :
    (ofStream limit stream).program.statements = node :: (ofStream limit rest.advanced).program.statements ∧
      (ofStream limit stream).diagnostics = found ++ (ofStream limit rest.advanced).diagnostics :=
  ofStream_item (Program.round_done going ran)

theorem ofStream_failed (ran : (statement (expression .standard limit)).run stream = ⟨.failed, rest, found⟩) :
    (ofStream limit stream).program.statements =
        (ofStream limit (recovered stream [] rest).advanced).program.statements ∧
      (ofStream limit stream).diagnostics =
        found ++ (ofStream limit (recovered stream [] rest).advanced).diagnostics :=
  ofStream_nothing (Program.round_failed going ran)

theorem ofStream_struck (ran : (statement (expression .standard limit)).run stream = ⟨.struck, rest, found⟩) :
    (ofStream limit stream).program.statements =
        (ofStream limit (recovered stream [] rest).advanced).program.statements ∧
      (ofStream limit stream).diagnostics = (found ++ [⟨.tooDeep, stream.current.location⟩]) ++
        (ofStream limit (recovered stream [] rest).advanced).diagnostics :=
  ofStream_nothing (Program.round_struck going ran)

/-- A statement that is struck strikes the parse. -/
theorem not_unstruck (ran : (statement (expression .standard limit)).run stream = ⟨.struck, rest, found⟩) :
    ¬ (ofStream limit stream).Unstruck := by
  intro unstruck
  refine unstruck ⟨.tooDeep, stream.current.location⟩ ?_ rfl
  rw [(ofStream_struck going ran).2]
  simp

/-- What is wrong with the first statement is found before anything else. -/
theorem ofStream_found {outcome : Outcome Node}
    (ran : (statement (expression .standard limit)).run stream = ⟨outcome, rest, found⟩) :
    ∃ later, (ofStream limit stream).diagnostics = found ++ later := by
  cases outcome with
  | done node => exact ⟨_, (ofStream_done going ran).2⟩
  | failed => exact ⟨_, (ofStream_failed going ran).2⟩
  | struck => exact ⟨_, (ofStream_struck going ran).2.trans (List.append_assoc ..)⟩

/-- A statement that strikes the limit strikes the parse. -/
theorem not_unstruck_of_strikes
    (strikes : ((statement (expression .standard limit)).run stream).Strikes) : ¬ (ofStream limit stream).Unstruck := by
  rcases ran : (statement (expression .standard limit)).run stream with ⟨outcome, rest, found⟩
  rw [ran] at strikes
  rcases strikes with struck | ⟨diagnostic, member, deep⟩
  · cases struck
    exact not_unstruck going ran
  · obtain ⟨later, split⟩ := ofStream_found going ran
    exact fun unstruck => unstruck diagnostic (split ▸ List.mem_append_left later member) deep

omit going

theorem induct (limit : Nat) {motive : TokenStream → Prop}
    (ended : ∀ stream : TokenStream, stream.current.kind = .eof → motive stream)
    (done : ∀ stream rest node found, stream.current.kind ≠ .eof → rest.Within stream →
      (statement (expression .standard limit)).run stream = ⟨.done node, rest, found⟩ →
        motive rest.advanced → motive stream)
    (failed : ∀ stream rest found, stream.current.kind ≠ .eof → rest.Within stream →
      (statement (expression .standard limit)).run stream = ⟨.failed, rest, found⟩ →
        motive (recovered stream [] rest).advanced → motive stream)
    (struck : ∀ stream rest found, stream.current.kind ≠ .eof → rest.Within stream →
      (statement (expression .standard limit)).run stream = ⟨.struck, rest, found⟩ →
        motive (recovered stream [] rest).advanced → motive stream) (stream : TokenStream) : motive stream := by
  induction stream using TokenStream.induct with
  | fewer stream ih =>
    by_cases ends : stream.current.kind = .eof
    · exact ended stream ends
    rcases ran : (statement (expression .standard limit)).run stream with ⟨outcome, rest, found⟩
    have within := ((expression_ensures limit).statement _).within_of ran
    have given := recovered_shorter stream [] within ends
    cases outcome with
    | done node =>
      have shorter := within.advanced_count_lt (TokenStream.count_pos ends)
      exact done stream rest node found ends within ran (ih _ shorter)
    | failed => exact failed stream rest found ends within ran (ih _ given)
    | struck => exact struck stream rest found ends within ran (ih _ given)

/-- The rest of a parse is a part of the stream. -/
theorem rest_within (limit : Nat) (stream : TokenStream) : (ofStream limit stream).rest.Within stream := by
  induction stream using induct limit with
  | ended stream ended =>
    rw [(run_of_ended limit ended).2.1]
    exact .refl stream
  | done stream rest node found going within ran ih =>
    rw [(run_of_item (Program.round_done going ran)).2.1]
    exact ih.trans ((TokenStream.Within.advanced rest).trans within)
  | failed stream rest found going within ran ih =>
    rw [(run_of_nothing (Program.round_failed going ran)).2.1]
    exact ih.trans (left_within stream [] within)
  | struck stream rest found going within ran ih =>
    rw [(run_of_nothing (Program.round_struck going ran)).2.1]
    exact ih.trans (left_within stream [] within)

/-- The statements of a program are read from tokens of the stream, and from all tokens of a source where nothing is
wrong. -/
theorem exists_formed (limit : Nat) (stream : TokenStream) :
    ∃ word, Node.Formed .all .statement (ofStream limit stream).program.statements word ∧ word.Sublist stream.ahead ∧
      (stream.Genuine → (ofStream limit stream).diagnostics = [] → word = stream.ahead) := by
  induction stream using induct limit with
  | ended stream ended =>
    rw [(ofStream_ended limit ended).1]
    exact ⟨[], .noStatement, List.nil_sublist _, fun genuine _ => (genuine.ahead_of_ended ended).symm⟩
  | done stream rest node found going within ran ih =>
    have own := (expression_ensures limit).statement stream
    rw [ran] at own
    obtain ⟨word, spans, whole, formed⟩ := own.read node rfl
    obtain ⟨passed, split, sublist⟩ := spans.among
    obtain ⟨others, all, among, every⟩ := ih
    obtain ⟨statements, diagnostics⟩ := ofStream_done going ran
    rw [statements, diagnostics]
    refine ⟨word ++ others, .statement formed all, ?_, fun genuine clear => ?_⟩
    · exact split ▸ sublist.append among
    · obtain ⟨first, second⟩ := List.append_eq_nil_iff.mp clear
      rw [every (genuine.within within).advanced second]
      exact (whole first).symm
  | failed stream rest found going within ran ih =>
    have own := (expression_ensures limit).statement stream
    rw [ran] at own
    obtain ⟨others, all, among, _⟩ := ih
    obtain ⟨statements, diagnostics⟩ := ofStream_failed going ran
    rw [statements, diagnostics]
    refine ⟨others, all, among.trans (left_within stream [] within).ahead.sublist, fun _ clear => ?_⟩
    exact absurd (List.append_eq_nil_iff.mp clear).1 (own.failed rfl)
  | struck stream rest found going within ran ih =>
    obtain ⟨others, all, among, _⟩ := ih
    obtain ⟨statements, diagnostics⟩ := ofStream_struck going ran
    rw [statements, diagnostics]
    refine ⟨others, all, among.trans (left_within stream [] within).ahead.sublist, fun _ clear => ?_⟩
    simp at clear

end Parsed

end Mana
