import Mana.Proofs.Grammar.Locality
import Mana.Proofs.Grammar.Parsed
import Mana.Proofs.Token.Indexed

/-! One token of lookahead. What has been parsed up to a token is settled: no text that comes later changes it. -/
namespace Mana

open Grammar Parse

namespace Parsed

/-- The statements of a program, each with the token that is current when it is appended: the last one of the
statement. -/
def appended (limit : Nat) (stream : TokenStream) : List (Node × Token) :=
  let round := (programRound (expression .standard limit)).run stream
  if round.rest.count < stream.count then
    match round.outcome with
    | .done (.item node) =>
      (node, ((statement (expression .standard limit)).run stream).rest.current) :: appended limit round.rest
    | _ => appended limit round.rest
  else []
termination_by stream.count

/-- The statements that are appended while one of the tokens is current. -/
def appendedAt (limit : Nat) (stream : TokenStream) (tokens : List Token) : List Node :=
  ((appended limit stream).filter fun item => item.2 ∈ tokens).map Prod.fst

/-- The diagnostics that are located at one of the tokens. -/
def diagnosticsAt (parsed : Parsed) (tokens : List Token) : List Diagnostic :=
  parsed.diagnostics.filter fun diagnostic => diagnostic.location ∈ tokens.map Token.location

variable {limit : Nat} {stream other rest : TokenStream} {found : List Diagnostic}

theorem appended_ended (limit : Nat) (ended : stream.current.kind = .eof) : appended limit stream = [] := by
  rw [appended, Program.round_ended ended]
  exact if_neg (Nat.lt_irrefl _)

section

variable (going : stream.current.kind ≠ .eof)
include going

theorem appended_done (ran : (statement (expression .standard limit)).run stream = ⟨.done node, rest, found⟩) :
    appended limit stream = (node, rest.current) :: appended limit rest.advanced := by
  have round := Program.round_done going ran
  rw [appended, round, ran]
  exact if_pos (round_passes round).2

theorem appended_given_up {outcome : Outcome Node} (undone : ∀ node, outcome ≠ .done node)
    (ran : (statement (expression .standard limit)).run stream = ⟨outcome, rest, found⟩) :
    appended limit stream = appended limit (recovered stream [] rest).advanced := by
  have within := ((expression_ensures limit).statement stream).within_of ran
  have shorter := recovered_shorter stream [] within going
  cases outcome with
  | done node => exact absurd rfl (undone node)
  | failed =>
    rw [appended, Program.round_failed going ran]
    exact if_pos shorter
  | struck =>
    rw [appended, Program.round_struck going ran]
    exact if_pos shorter

end

theorem appended_statements (limit : Nat) (stream : TokenStream) :
    (appended limit stream).map Prod.fst = (ofStream limit stream).program.statements := by
  induction stream using induct limit with
  | ended stream ended => rw [appended_ended limit ended, (ofStream_ended limit ended).1, List.map_nil]
  | done stream rest node found going within ran ih =>
    rw [appended_done going ran, (ofStream_done going ran).1, List.map_cons, ih]
  | failed stream rest found going within ran ih =>
    rw [appended_given_up going (by simp) ran, (ofStream_failed going ran).1, ih]
  | struck stream rest found going within ran ih =>
    rw [appended_given_up going (by simp) ran, (ofStream_struck going ran).1, ih]

/-- A statement is appended while a token of the stream is current. -/
theorem appended_within (limit : Nat) (stream : TokenStream) :
    ∀ item ∈ appended limit stream, ∃ rest : TokenStream, rest.Within stream ∧ item.2 = rest.current := by
  induction stream using induct limit with
  | ended stream ended =>
    rw [appended_ended limit ended]
    exact List.forall_mem_nil _
  | done stream rest node found going within ran ih =>
    rw [appended_done going ran]
    refine List.forall_mem_cons.mpr ⟨⟨rest, within, rfl⟩, fun item member => ?_⟩
    obtain ⟨place, later, same⟩ := ih item member
    exact ⟨place, later.trans ((TokenStream.Within.advanced rest).trans within), same⟩
  | failed stream rest found going within ran ih | struck stream rest found going within ran ih =>
    rw [appended_given_up going (by simp) ran]
    intro item member
    obtain ⟨place, later, same⟩ := ih item member
    exact ⟨place, later.trans (left_within stream [] within), same⟩

theorem diagnostics_located (limit : Nat) (stream : TokenStream) :
    ∀ diagnostic ∈ (ofStream limit stream).diagnostics,
      ∃ token ∈ stream.tokens, diagnostic.location = token.location := by
  intro diagnostic member
  have ranges := (expression_local .standard limit).program.ranges stream
  rw [run_ofStream] at ranges
  obtain ⟨place, later, _, located⟩ := ranges.located diagnostic member
  exact ⟨place.current, later.current_mem, located⟩

/-- The same diagnostics and statements are seen of two streams. -/
def SeenAlike (limit : Nat) (seen : Diagnostic → Bool) (early : Node × Token → Bool) (stream other : TokenStream) : Prop :=
  (ofStream limit stream).diagnostics.filter seen = (ofStream limit other).diagnostics.filter seen ∧
    (appended limit stream).filter early = (appended limit other).filter early

namespace SeenAlike

variable {seen : Diagnostic → Bool} {early : Node × Token → Bool} {rest' : TokenStream}

theorem ended (ended : stream.current.kind = .eof) (ended' : other.current.kind = .eof) :
    SeenAlike limit seen early stream other := by
  rw [SeenAlike, (ofStream_ended limit ended).2, (ofStream_ended limit ended').2, appended_ended limit ended,
    appended_ended limit ended']
  exact ⟨rfl, rfl⟩

variable (going : stream.current.kind ≠ .eof) (going' : other.current.kind ≠ .eof)
include going going'

theorem done (ran : (statement (expression .standard limit)).run stream = ⟨.done node, rest, found⟩)
    (ran' : (statement (expression .standard limit)).run other = ⟨.done node, rest', found⟩)
    (same : rest'.current = rest.current) (later : SeenAlike limit seen early rest.advanced rest'.advanced) :
    SeenAlike limit seen early stream other := by
  rw [SeenAlike, (ofStream_done going ran).2, (ofStream_done going' ran').2, appended_done going ran,
    appended_done going' ran', same, List.filter_append, List.filter_append, List.filter_cons, List.filter_cons,
    later.1, later.2]
  exact ⟨rfl, rfl⟩

theorem failed (ran : (statement (expression .standard limit)).run stream = ⟨.failed, rest, found⟩)
    (ran' : (statement (expression .standard limit)).run other = ⟨.failed, rest', found⟩)
    (later : SeenAlike limit seen early (recovered stream [] rest).advanced (recovered other [] rest').advanced) :
    SeenAlike limit seen early stream other := by
  rw [SeenAlike, (ofStream_failed going ran).2, (ofStream_failed going' ran').2, appended_given_up going (by simp) ran,
    appended_given_up going' (by simp) ran', List.filter_append, List.filter_append, later.1, later.2]
  exact ⟨rfl, rfl⟩

end SeenAlike

/-- Neither the diagnostics at the tokens of an ending are seen, nor what is appended right before it or in it. -/
structure Unseen (whole ending : TokenStream) (seen : Diagnostic → Bool) (early : Node × Token → Bool) : Prop where
  diagnostics : ∀ diagnostic, ∀ token ∈ ending.tokens, diagnostic.location = token.location → seen diagnostic = false
  appended : ∀ item, ∀ rest : TokenStream, rest.Within whole → rest.advanced.Within ending →
    item.2 = rest.current → early item = false

namespace Unseen

variable {whole whole' ending ending' : TokenStream} {seen : Diagnostic → Bool} {early : Node × Token → Bool}

theorem filter_found (unseen : Unseen whole ending seen early)
    (located : ∀ diagnostic ∈ found, ∃ token ∈ ending.tokens, diagnostic.location = token.location) :
    found.filter seen = [] := by
  refine List.filter_eq_nil_iff.mpr fun diagnostic member => ?_
  obtain ⟨token, among, same⟩ := located diagnostic member
  simp [unseen.diagnostics diagnostic token among same]

theorem filter_beyond (unseen : Unseen whole ending seen early) (limit : Nat) (within : stream.Within whole)
    (beyond : stream.Within ending) :
    (ofStream limit stream).diagnostics.filter seen = [] ∧ (Parsed.appended limit stream).filter early = [] := by
  refine ⟨unseen.filter_found fun diagnostic member => ?_, List.filter_eq_nil_iff.mpr fun item member => ?_⟩
  · obtain ⟨token, among, same⟩ := diagnostics_located limit stream diagnostic member
    exact ⟨token, beyond.tokens.subset among, same⟩
  · obtain ⟨rest, later, same⟩ := appended_within limit stream item member
    simp [unseen.appended item rest (later.trans within) ((TokenStream.Within.advanced rest).trans (later.trans beyond))
      same]

/-- Where a statement has come to the ending, nothing is seen any more after what it found before that. -/
theorem filter_apart (unseen : Unseen whole ending seen early) (going : stream.current.kind ≠ .eof)
    (inside : stream.Within whole) {outcome : Outcome Node}
    (ran : (statement (expression .standard limit)).run stream = ⟨outcome, rest, found⟩)
    (unstruck : (ofStream limit stream).Unstruck)
    (beyond : Step.Beyond ⟨outcome, rest, found⟩ ending (fun _ => .read) common) :
    (ofStream limit stream).diagnostics.filter seen = common.filter seen ∧
      (Parsed.appended limit stream).filter early = [] := by
  have within := ((expression_ensures limit).statement stream).within_of ran
  obtain ⟨later, split, located⟩ := beyond.found
  have first : found.filter seen = common.filter seen := by
    rw [show found = common ++ later from split, List.filter_append, unseen.filter_found located, List.append_nil]
  cases outcome with
  | struck => exact absurd unstruck (not_unstruck going ran)
  | done node =>
    have left : rest.advanced.Within ending := beyond.unread
    obtain ⟨none, nothing⟩ :=
      unseen.filter_beyond limit ((TokenStream.Within.advanced rest).trans (within.trans inside)) left
    rw [(ofStream_done going ran).2, appended_done going ran, List.filter_append, first, none,
      List.filter_cons, unseen.appended _ rest (within.trans inside) left rfl]
    exact ⟨List.append_nil _, nothing⟩
  | failed =>
    have given : (recovered stream [] rest).advanced.Within ending :=
      (recovered_within stream [] rest).both_advanced.trans beyond.unread
    obtain ⟨none, nothing⟩ := unseen.filter_beyond limit ((left_within stream [] within).trans inside) given
    rw [(ofStream_failed going ran).2, appended_given_up going (by simp) ran, List.filter_append,
      first, none]
    exact ⟨List.append_nil _, nothing⟩

/-- Nothing is seen in either of two endings. -/
theorem seenAlike_endings (unseen : Unseen whole ending seen early) (unseen' : Unseen whole' ending' seen early)
    (inside : stream.Within whole) (inside' : other.Within whole') (beyond : stream.Within ending)
    (beyond' : other.Within ending') : SeenAlike limit seen early stream other := by
  obtain ⟨none, nothing⟩ := unseen.filter_beyond limit inside beyond
  obtain ⟨none', nothing'⟩ := unseen'.filter_beyond limit inside' beyond'
  exact ⟨none.trans none'.symm, nothing.trans nothing'.symm⟩

/-- On streams that share tokens, the same diagnostics and statements are seen, if none of those in their own endings
are. -/
theorem seenAlike_shared {fork : Fork} {word : List Token}
    (unseen : Unseen whole fork.one seen early) (unseen' : Unseen whole' fork.other seen early)
    (inside : stream.Within whole) (inside' : other.Within whole') (shares : fork.Shares .due word stream other)
    (unstruck : (ofStream limit stream).Unstruck) (unstruck' : (ofStream limit other).Unstruck) :
    SeenAlike limit seen early stream other := by
  induction stream using TokenStream.induct generalizing other word with
  | fewer stream ih =>
    cases word with
    | nil =>
      obtain ⟨rfl, rfl⟩ : stream = fork.one ∧ other = fork.other := shares.onward
      exact unseen.seenAlike_endings unseen' inside inside' (.refl _) (.refl _)
    | cons token word =>
      obtain ⟨here, there⟩ : stream.current = token ∧ other.current = token := shares.next
      by_cases ended : token.kind = .eof
      · exact .ended (here ▸ ended) (there ▸ ended)
      have going : stream.current.kind ≠ .eof := here ▸ ended
      have going' : other.current.kind ≠ .eof := there ▸ ended
      have settled := (expression_local .standard limit).statement.settles shares
      rcases ran : (statement (expression .standard limit)).run stream with ⟨outcome, rest, found⟩
      rcases ran' : (statement (expression .standard limit)).run other with ⟨outcome', rest', found'⟩
      have within := ((expression_ensures limit).statement stream).within_of ran
      have within' := ((expression_ensures limit).statement other).within_of ran'
      rw [ran, ran'] at settled
      cases settled with
      | strikes strikes =>
        rw [← ran, ← ran'] at strikes
        rcases strikes with strikes | strikes
        · exact absurd unstruck (not_unstruck_of_strikes going strikes)
        · exact absurd unstruck' (not_unstruck_of_strikes going' strikes)
      | apart first second =>
        obtain ⟨same, none⟩ := unseen.filter_apart going inside ran unstruck first
        obtain ⟨same', none'⟩ := unseen'.filter_apart going' inside' ran' unstruck' second
        exact ⟨same.trans same'.symm, none.trans none'.symm⟩
      | done later =>
        refine .done going going' ran ran' later.current ?_
        exact ih _ (within.advanced_count_lt (TokenStream.count_pos going))
          ((TokenStream.Within.advanced rest).trans (within.trans inside))
          ((TokenStream.Within.advanced rest').trans (within'.trans inside')) later.advanced
          (unstruck.of_append (ofStream_done going ran).2) (unstruck'.of_append (ofStream_done going' ran').2)
      | failed later =>
        refine .failed going going' ran ran' ?_
        have left := (left_within stream [] within).trans inside
        have left' := (left_within other [] within').trans inside'
        rcases shares_recovered shares later [] with ⟨_, shared⟩ | ⟨beyond, beyond'⟩
        · exact ih _ (recovered_shorter stream [] within going) left left' shared.advanced
            (unstruck.of_append (ofStream_failed going ran).2) (unstruck'.of_append (ofStream_failed going' ran').2)
        · exact unseen.seenAlike_endings unseen' left left' ((TokenStream.Within.advanced _).trans beyond)
            ((TokenStream.Within.advanced _).trans beyond')

end Unseen

end Parsed

/-- What comes behind the first tokens of a source is not seen at them. -/
theorem Parsed.unseen_behind (source : Text) (enough : number ≤ (scan source).count) :
    Parsed.Unseen (scan source) (.ofList ((scan source).ahead.drop number) (scan source).stop)
      (fun diagnostic => diagnostic.location ∈ ((scan source).firsts number).map Token.location)
      (fun item => item.2 ∈ (scan source).firsts (number - 1)) := by
  have within : TokenStream.Within (.ofList ((scan source).ahead.drop number) (scan source).stop) (scan source) :=
    ⟨List.drop_suffix _ _, rfl⟩
  have left : (TokenStream.ofList ((scan source).ahead.drop number) (scan source).stop).count =
      (scan source).count - number := by
    rw [TokenStream.count_eq, TokenStream.ahead_ofList, List.length_drop, ← TokenStream.count_eq]
  have apart {index other : Nat} (before : index < (scan source).count) (later : index < other) :
      ((scan source).tokenAt index).location ≠ ((scan source).tokenAt other).location :=
    Location.Precedes.ne (scan_token_precedes before later)
  refine ⟨fun diagnostic token among same => decide_eq_false fun seen => ?_, fun item rest inside beyond same =>
    decide_eq_false fun seen => ?_⟩
  · obtain ⟨index, rfl⟩ := TokenStream.exists_token among
    obtain ⟨other, first, here⟩ := List.mem_map.mp seen
    obtain ⟨place, before, rfl⟩ := TokenStream.mem_firsts.mp first
    rw [same, within.tokenAt] at here
    exact apart (by omega) (by omega) here
  · obtain ⟨place, before, here⟩ := TokenStream.mem_firsts.mp seen
    rw [same, TokenStream.current_eq_token, inside.tokenAt] at here
    have bound := beyond.count_le
    rw [TokenStream.advanced_count, left] at bound
    exact apart (by omega) (by omega) (congrArg Token.location here.symm)

/-- Sources that agree in their first tokens have the same diagnostics at these tokens, and the same statements that are
appended while one of them but the last is current, whatever comes after them. -/
theorem prefix_settled {limit number : Nat} {first second : Text}
    (agree : (scan first).firsts number = (scan second).firsts number)
    (unstruck : (parseWithin limit first).Unstruck) (unstruck' : (parseWithin limit second).Unstruck) :
    (parseWithin limit first).diagnosticsAt ((scan first).firsts number) =
        (parseWithin limit second).diagnosticsAt ((scan second).firsts number) ∧
      Parsed.appendedAt limit (scan first) ((scan first).firsts (number - 1)) =
        Parsed.appendedAt limit (scan second) ((scan second).firsts (number - 1)) := by
  by_cases ends : (scan first).count < number
  · have same := TokenStream.eq_of_firsts (scan_genuine first) (scan_genuine second) agree ends
    rw [parseWithin, parseWithin, same]
    exact ⟨rfl, rfl⟩
  have enough : number ≤ (scan first).count := Nat.not_lt.mp ends
  have enough' : number ≤ (scan second).count := by
    by_contra few
    have more := TokenStream.count_le_of_firsts (scan_genuine first) agree.symm (Nat.not_le.mp few)
    omega
  have word : (scan first).ahead.take number = (scan second).ahead.take number := by
    rw [← TokenStream.firsts_eq_take enough, ← TokenStream.firsts_eq_take enough', agree]
  have shares : Fork.Shares ⟨.ofList ((scan first).ahead.drop number) (scan first).stop,
      .ofList ((scan second).ahead.drop number) (scan second).stop⟩ .due ((scan first).ahead.take number)
      (scan first) (scan second) :=
    .of_eq (TokenStream.eq_behind (List.take_append_drop ..).symm)
      (TokenStream.eq_behind (word ▸ (List.take_append_drop ..).symm))
  have fewer : (scan first).firsts (number - 1) = (scan second).firsts (number - 1) :=
    List.map_inj_left.mpr fun index member => TokenStream.token_of_firsts agree (by
      rw [List.mem_range] at member
      omega)
  have unseen' := Parsed.unseen_behind second enough'
  rw [← agree, ← fewer] at unseen'
  obtain ⟨diagnostics, appended⟩ :=
    (Parsed.unseen_behind first enough).seenAlike_shared unseen' (.refl _) (.refl _) shares unstruck unstruck'
  rw [← agree, ← fewer]
  exact ⟨diagnostics, congrArg (List.map Prod.fst) appended⟩

/-- Complaints at the first tokens, the one about the last of them included, are the same whatever the rest is. -/
theorem prefix_settled_broken :
    (parseWithin 9 "let 5; a; (b".toList).diagnosticsAt ((scan "let 5; a; (b".toList).firsts 6) =
        (parseWithin 9 "let 5; a; (+ c) d".toList).diagnosticsAt ((scan "let 5; a; (+ c) d".toList).firsts 6) ∧
      Parsed.appendedAt 9 (scan "let 5; a; (b".toList) ((scan "let 5; a; (b".toList).firsts (6 - 1)) =
        Parsed.appendedAt 9 (scan "let 5; a; (+ c) d".toList) ((scan "let 5; a; (+ c) d".toList).firsts (6 - 1)) :=
  prefix_settled (by decide +kernel) (by decide +kernel) (by decide +kernel)

end Mana
