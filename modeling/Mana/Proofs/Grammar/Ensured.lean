import Mana.Proofs.Grammar.Rounds
import Mana.Proofs.Parse.Ensures
import Mana.Proofs.Tree.Formed

/-! What the forms of the language ensure: each is read from the tokens of its rule, and nests no deeper than there
are tokens. -/
namespace Mana.Grammar

open Parse
open Node (Formed)

variable {depth : Nat} {stream : TokenStream} {before after : Stage} {place : Place}

theorem Rules.plain_of_opening {opening : Opening} (found : standard.opening kind = some opening) : kind.Plain := by
  cases kind <;> first | decide | cases found

theorem Rules.plain_of_extension {extension : Extension} (found : standard.extension kind = some extension) :
    kind.Plain := by
  cases kind <;> first | decide | cases found

theorem ensures_expect {follow : Unit → Parse α} {told : α → List Token → Prop} (plain : wanted.Plain)
    (second : stream.advanced.current.kind = wanted →
      ((follow ()).run stream.advanced).Ensures depth stream.advanced .read after
        fun result word => told result (stream.advanced.current :: word)) :
    ((expect wanted >>= follow).run stream).Ensures depth stream .read after told := by
  rw [run_expect_bind]
  split
  · rename_i same
    exact .of_advanced (.take (same ▸ plain) (second same))
  · rename_i other
    exact .refused (.expected other) rfl

theorem ensures_acceptSemicolon :
    (acceptSemicolon.run stream).Ensures depth stream .read .read fun _ word => Semicolon word := by
  simp only [acceptSemicolon, run_upcoming_bind]
  split
  · rename_i same
    exact .of_advanced (.take (same ▸ by decide) (.done (.put same)))
  · exact .done .left_out

/-! Items between commas, up to a closing token. -/

section Series

/-- The items are read with the token that closes them. -/
def Closed (closing : Kind) (place : Place) (nodes : List Node) (word : List Token) : Prop :=
  ∃ inner close, word = inner ++ [close] ∧ close.kind = closing ∧ Formed .listed place nodes inner

variable {item : Parse Node}
  (each : ∀ stream, (item.run stream).Ensures depth stream .due .read fun node => Formed .one place [node])
include each

theorem ensures_seriesRound :
    ((seriesRound item).run stream).Ensures depth stream .read .read (Gain.Tells (Formed .further place)) := by
  simp only [seriesRound, run_upcoming_bind]
  split
  · rename_i comma
    refine .of_advanced (.take (comma ▸ by decide) (.of_advanced ((each _).andThen fun node word rest formed => ?_)))
    refine .done ⟨List.cons_ne_nil _ _, fun items later all => ?_⟩
    rw [List.append_nil]
    exact .another comma formed all
  · exact .done .nothing

theorem seriesRound_passes : GainsPass (seriesRound item) :=
  .of_proceeds _ fun _ => (ensures_seriesRound each).toProceeds

theorem ensures_series (plain : closing.Plain) :
    ((series item closing).run stream).Ensures depth stream .read .read (Closed closing place) := by
  simp only [series, run_upcoming_bind]
  split
  · rename_i same
    exact .of_advanced (.take (same ▸ plain) (.done ⟨[], _, rfl, same, .noItem⟩))
  · refine .of_advanced ((each _).andThen fun first word rest formed => ?_)
    apply (Step.Ensures.collect _ fun _ => ensures_seriesRound each).andThen
    intro others word' rest all
    refine ensures_expect plain fun closes => .done ?_
    exact ⟨word ++ word', _, (List.append_assoc ..).symm, closes, .item formed all⟩

end Series

theorem ensures_parameter :
    (parameter.run stream).Ensures depth stream .due .read fun node => Formed .one .name [node] := by
  simp only [parameter, run_current_bind]
  split
  · rename_i named
    exact .take (named ▸ by decide) (.done (.name named))
  · rename_i other
    exact .refused (.expected other) rfl

theorem parametersRound_passes : GainsPass (seriesRound parameter) :=
  have each (stream : TokenStream) :
      (parameter.run stream).Ensures 0 stream .due .read fun node => Formed .one .name [node] := ensures_parameter
  seriesRound_passes each

/-- The expression is read from a word that begins with the token. -/
def Begins (token : Token) (node : Node) (word : List Token) : Prop :=
  ∃ more, word = token :: more ∧ Formed .one .expression [node] word

/-- What the node on the left is read from is read before what the node is told by. -/
def Extends (left node : Node) (word : List Token) : Prop :=
  ∀ earlier, Formed .one .expression [left] earlier → Formed .one .expression [node] (earlier ++ word)

/-- Some tokens more are read than the node on the left is read from. -/
def Lengthens (left node : Node) (word : List Token) : Prop := word ≠ [] ∧ Extends left node word

/-- A parser of nested expressions reads them, and strikes the limit only below a depth. -/
def Nested.Ensures (nested : Nested) (depth : Nat) : Prop :=
  ∀ strength stream, ((nested strength).run stream).Ensures depth stream .due .read (Begins stream.current)

theorem ensures_integer (kind : stream.current.kind = .int) :
    (integer.run stream).Ensures depth stream .due .read (Begins stream.current) := by
  simp only [integer, run_current_bind]
  split
  · rename_i read
    exact .take (kind ▸ by decide) (.done ⟨[], rfl, .integer kind read⟩)
  · rename_i unread
    exact .refused (.badInteger kind unread) rfl

namespace Nested.Ensures

variable {nested : Nested} (ensures : nested.Ensures depth)
include ensures

theorem expression (strength : Int) (stream : TokenStream) :
    ((nested strength).run stream).Ensures depth stream .due .read fun node => Formed .one .expression [node] :=
  (ensures strength stream).imp fun _ _ ⟨_, _, formed⟩ => formed

theorem letStatement (kind : stream.current.kind = .letKeyword) :
    ((letStatement nested).run stream).Ensures depth stream .due .read fun node => Formed .one .statement [node] := by
  refine .take (kind ▸ by decide) (ensures_expect (by decide) fun named => ensures_expect (by decide) fun assigns => ?_)
  refine .of_advanced ((ensures.expression _ _).andThen fun value word rest formed => ?_)
  refine ensures_acceptSemicolon.andThen fun _ last rest ends => .done ?_
  simpa using Formed.letStatement kind named assigns formed ends

theorem returnStatement (kind : stream.current.kind = .returnKeyword) :
    ((returnStatement nested).run stream).Ensures depth stream .due .read fun node =>
      Formed .one .statement [node] := by
  refine .take (kind ▸ by decide) (.of_advanced ((ensures.expression _ _).andThen fun value word rest formed => ?_))
  refine ensures_acceptSemicolon.andThen fun _ last rest ends => .done ?_
  simpa using Formed.returnStatement kind formed ends

theorem expressionStatement :
    ((expressionStatement nested).run stream).Ensures depth stream .due .read fun node =>
      Formed .one .statement [node] := by
  apply (ensures _ stream).andThen
  rintro value _ rest ⟨more, rfl, formed⟩
  refine ensures_acceptSemicolon.andThen fun _ last rest ends => .done ?_
  simpa using Formed.expressionStatement formed ends

theorem statement (stream : TokenStream) :
    ((statement nested).run stream).Ensures depth stream .due .read fun node => Formed .one .statement [node] := by
  simp only [Grammar.statement, run_current_bind]
  split
  · rename_i kind
    exact ensures.letStatement kind
  · split
    · rename_i kind
      exact ensures.returnStatement kind
    · exact ensures.expressionStatement

theorem blockStatements :
    ((collect (blockRound nested)).run stream).Proceeds depth stream .due .read fun nodes word =>
      ∃ inner close, word = inner ++ [close] ∧ close.kind = .rbrace ∧ Formed .all .statement nodes inner := by
  induction stream using TokenStream.induct with
  | fewer stream ih =>
    by_cases closed : stream.current.kind = .rbrace
    · rw [Block.run_closed closed]
      exact .take (closed ▸ by decide) (.done ⟨[], _, rfl, closed, .noStatement⟩)
    by_cases ended : stream.current.kind = .eof
    · rw [Block.run_ended ended, ← ended]
      exact .refused (.expected closed) rfl
    have own := (ensures.statement stream).toProceeds
    rcases ran : (Grammar.statement nested).run stream with ⟨outcome, rest, found⟩
    rw [ran] at own
    cases outcome with
    | struck =>
      rw [Block.run_struck ⟨closed, ended⟩ ran]
      exact own.of_struck
    | done node =>
      rw [Block.run_done ⟨closed, ended⟩ own.within ran]
      obtain ⟨word, spans, whole, formed⟩ := own.read node rfl
      have others := ih _ (own.within.advanced_count_lt (TokenStream.count_pos ended))
      refine .since (.map (.of_advanced (others.imp ?_))) own.within own.trail spans whole
      rintro nodes _ ⟨inner, close, rfl, closes, all⟩
      exact ⟨word ++ inner, close, (List.append_assoc ..).symm, closes, .statement formed all⟩
    | failed =>
      rw [Block.run_failed ⟨closed, ended⟩ own.within ran]
      have given := recovered_within stream [.rbrace] rest
      split
      · rename_i closes
        exact own.last_after_failed given (by rw [closes]; decide) ⟨[], _, rfl, closes, .noStatement⟩
      · exact own.after_failed given (ih _ (recovered_shorter stream [.rbrace] own.within ended))

/-- A statement that is given up is left at a closing brace at the latest. -/
theorem blockRound_opens (opens : stream.Opens bound .due) : ((blockRound nested).run stream).Opens bound .due := by
  by_cases closed : stream.current.kind = .rbrace
  · rw [Block.round_closed closed]
    exact .of_done opens
  by_cases ended : stream.current.kind = .eof
  · rw [Block.round_ended ended]
    exact .of_failed opens
  have own := (ensures.statement stream).opens bound opens
  rcases ran : (Grammar.statement nested).run stream with ⟨outcome, rest, found⟩
  rw [ran] at own
  cases outcome with
  | struck =>
    rw [Block.round_struck ⟨closed, ended⟩ ran]
    exact .of_struck
  | done node =>
    rw [Block.round_done ⟨closed, ended⟩ ran]
    exact .of_done (own.done node rfl).advanced
  | failed =>
    have left : (recovered stream [.rbrace] rest).Opens bound .due := by
      unfold recovered
      split
      · exact own.failed rfl
      · exact (own.failed rfl).skippedTo rfl
    rw [Block.round_failed ⟨closed, ended⟩ ran]
    split
    · exact .of_done left
    · rename_i other
      exact .of_done (left.pass other)

theorem blockRound_passes : GainsPass (blockRound nested) := by
  intro stream gain rest found ran
  by_cases closed : stream.current.kind = .rbrace
  · cases (Block.round_closed closed).symm.trans ran
    trivial
  by_cases ended : stream.current.kind = .eof
  · cases (Block.round_ended ended).symm.trans ran
  rcases one : (Grammar.statement nested).run stream with ⟨outcome, left, own⟩
  have within := (ensures.statement _).within_of one
  cases outcome with
  | struck => cases (Block.round_struck ⟨closed, ended⟩ one).symm.trans ran
  | done node =>
    cases (Block.round_done ⟨closed, ended⟩ one).symm.trans ran
    exact ⟨trivial, within.advanced_count_lt (TokenStream.count_pos ended)⟩
  | failed =>
    rw [Block.round_failed ⟨closed, ended⟩ one] at ran
    split at ran
    · cases ran
      trivial
    · cases ran
      exact recovered_shorter stream [.rbrace] within ended

theorem programRound (ran : (programRound nested).run stream = ⟨.done gain, rest, found⟩) :
    rest.Within stream ∧ Gain.Passes (fun _ => True) stream gain rest := by
  by_cases ended : stream.current.kind = .eof
  · cases (Program.round_ended ended).symm.trans ran
    exact ⟨.refl stream, trivial⟩
  rcases one : (Grammar.statement nested).run stream with ⟨outcome, left, own⟩
  have within := (ensures.statement _).within_of one
  cases outcome with
  | done node =>
    cases (Program.round_done ended one).symm.trans ran
    exact ⟨(TokenStream.Within.advanced left).trans within, trivial,
      within.advanced_count_lt (TokenStream.count_pos ended)⟩
  | failed =>
    cases (Program.round_failed ended one).symm.trans ran
    exact ⟨left_within stream [] within, recovered_shorter stream [] within ended⟩
  | struck =>
    cases (Program.round_struck ended one).symm.trans ran
    exact ⟨left_within stream [] within, recovered_shorter stream [] within ended⟩

theorem block (kind : stream.current.kind = .lbrace) :
    ((block nested).run stream).Ensures depth stream .due .read fun node => Formed .one .block [node] where
  toProceeds := by
    rw [run_block]
    refine .take (by rw [kind]; decide) (.of_advanced (ensures.blockStatements.andThen ?_))
    rintro nodes _ rest _ ⟨inner, close, rfl, closes, all⟩
    exact .done (by simpa using Formed.block kind all closes)
  opens bound opens := by
    have collected := Step.Opens.collect (fun _ opens => ensures.blockRound_opens opens) (opens.enter kind)
    rw [run_block]
    rcases ran : (collect (blockRound nested)).run stream.advanced with ⟨outcome, rest, found⟩
    rw [ran] at collected
    cases outcome with
    | done statements =>
      have closed : rest.current.kind = .rbrace := collect_stopped (fun _ _ _ => Block.round_stopped) ran
      exact .since (.of_done ((collected.done statements rfl).close closed))
    | failed => exact .of_failed ((collected.failed rfl).mono (Int.sub_le_self bound (by decide)))
    | struck => exact .of_struck

theorem expectBlock {follow : Node → Parse α} {told : α → List Token → Prop}
    (second : ∀ body word rest, Formed .one .block [body] word →
      ((follow body).run rest).Ensures depth rest .read after fun final more => told final (word ++ more)) :
    ((expect .lbrace >>= fun _ => Grammar.block nested >>= follow).run stream).Ensures depth stream .read after
      told := by
  rw [run_expect_bind]
  split
  · rename_i brace
    rw [stream.upcoming_eq] at brace
    exact .of_advanced ((ensures.block brace).andThen second)
  · rename_i other
    exact .refused (.expected other) rfl

/-! The forms that begin at a token or extend an expression read that token before they nest, and so gain a level. -/

theorem unary (kind : stream.current.kind ∈ unaryOperators) :
    ((unary nested).run stream).Ensures (depth + 1) stream .due .read (Begins stream.current) := by
  refine .descend (Rules.plain_of_opening (Rules.opening_unary kind))
    (.of_advanced ((ensures.expression _ _).andThen fun right word rest formed => ?_))
  exact .done ⟨_, rfl, by simpa using Formed.unary kind formed⟩

theorem grouped (kind : stream.current.kind = .lparen) :
    ((grouped nested).run stream).Ensures (depth + 1) stream .due .read (Begins stream.current) := by
  refine .descend (by rw [kind]; decide)
    (.of_advanced ((ensures.expression _ _).andThen fun inner word rest formed => ?_))
  exact ensures_expect (by decide) fun closes => .done ⟨_, rfl, .grouped kind formed closes⟩

theorem conditional (kind : stream.current.kind = .ifKeyword) :
    ((conditional nested).run stream).Ensures (depth + 1) stream .due .read (Begins stream.current) := by
  refine .descend (by rw [kind]; decide) (ensures_expect (by decide) fun opens => .of_advanced ?_)
  apply (ensures.expression _ _).andThen
  intro condition word rest formed
  refine ensures_expect (by decide) fun closes => ensures.expectBlock fun consequence word' rest formed' => ?_
  simp only [run_upcoming_bind]
  split
  · rename_i otherwise
    rw [rest.upcoming_eq] at otherwise
    refine .of_advanced (.take (otherwise ▸ by decide) (ensures.expectBlock fun alternative word'' rest formed'' => ?_))
    refine .done ⟨_, rfl, ?_⟩
    simpa using Formed.conditionalElse kind opens formed closes formed' otherwise formed''
  · exact .done ⟨_, rfl, by simpa using Formed.conditional kind opens formed closes formed'⟩

theorem function (kind : stream.current.kind = .function) :
    ((function nested).run stream).Ensures (depth + 1) stream .due .read (Begins stream.current) := by
  refine .descend (by rw [kind]; decide) (ensures_expect (by decide) fun opens => ?_)
  apply (ensures_series (fun _ => ensures_parameter) (by decide)).andThen
  rintro parameters _ rest ⟨inner, close, rfl, closes, formed⟩
  refine ensures.expectBlock fun body word rest formed' => .done ⟨_, rfl, ?_⟩
  simpa using Formed.function kind opens formed closes formed'

theorem binary (kind : stream.current.kind ∈ binaryOperators) (left : Node) :
    ((binary nested left).run stream).Ensures (depth + 1) stream .due .read (Lengthens left) := by
  refine .descend (Rules.plain_of_extension (Rules.extension_binary kind))
    (.of_advanced ((ensures.expression _ _).andThen fun right word rest formed => ?_))
  exact .done ⟨List.cons_ne_nil _ _, fun earlier left => by simpa using Formed.binary left kind formed⟩

theorem call (kind : stream.current.kind = .lparen) (callee : Node) :
    ((call nested callee).run stream).Ensures (depth + 1) stream .due .read (Lengthens callee) := by
  refine .descend (by rw [kind]; decide) ?_
  apply (ensures_series (ensures.expression _) (by decide)).andThen
  rintro arguments _ rest ⟨inner, close, rfl, closes, formed⟩
  exact .done ⟨List.cons_ne_nil _ _, fun earlier callee => by simpa using Formed.call callee kind formed closes⟩

theorem opened (stream : TokenStream) :
    ((opened .standard nested).run stream).Ensures (depth + 1) stream .due .read (Begins stream.current) := by
  simp only [Grammar.opened, run_current_bind]
  split
  · rename_i opening found
    rcases Rules.opening_cases found with ⟨rfl, kind⟩ | ⟨rfl, kind⟩ | ⟨rfl, kind⟩ | ⟨rfl, kind⟩ | ⟨rfl, kind⟩ |
      ⟨rfl, kind⟩ | ⟨rfl, kind⟩
    · exact .take (kind ▸ by decide) (.done ⟨[], rfl, .identifier kind⟩)
    · exact ensures_integer kind
    · exact .take (Rules.plain_of_opening found) (.done ⟨[], rfl, .boolean kind⟩)
    · exact ensures.unary kind
    · exact ensures.grouped kind
    · exact ensures.conditional kind
    · exact ensures.function kind
  · rename_i none
    exact .refused (.noOpening none) rfl

theorem extendedRound (strength : Int) (left : Node) :
    ((extendedRound .standard nested strength left).run stream).Ensures (depth + 1) stream .read .read
      (Round.Tells Extends left) := by
  have stopped : (Round.stop left : Round Node Node).Tells Extends left [] := fun earlier formed =>
    (List.append_nil earlier).symm ▸ formed
  simp only [Grammar.extendedRound, run_upcoming_bind]
  split
  · exact .done stopped
  · split
    · exact .done stopped
    · rename_i extension found
      have longer : ((extension.parse nested left).run stream.advanced).Ensures (depth + 1) stream.advanced .due .read
          (Lengthens left) := by
        rw [stream.upcoming_eq] at found
        rcases Rules.extension_cases found with ⟨rfl, kind⟩ | ⟨rfl, kind⟩
        · exact ensures.binary kind left
        · exact ensures.call kind left
      refine .of_advanced (longer.andThen fun longer word rest first => .done ⟨by simpa using first.1, ?_⟩)
      intro node later second earlier formed
      simpa using second _ (first.2 earlier formed)

theorem extendedRound_passes (strength : Int) : RoundsPass (Grammar.extendedRound .standard nested strength) :=
  .of_proceeds Extends fun left _ => (ensures.extendedRound strength left).toProceeds

theorem extended (strength : Int) (left : Node) :
    ((extended .standard nested strength left).run stream).Ensures (depth + 1) stream .read .read (Extends left) :=
  .iterate Extends (fun left _ => ensures.extendedRound strength left) left

end Nested.Ensures

/-! The last token of an expression: a name, an integer, a truth value, a closing parenthesis or a closing brace. -/

/-- The current token may be the last one of an expression. -/
def AtEnding (stream : TokenStream) : Prop := stream.current.kind ∈ Node.endings

theorem AtEnding.going (ending : AtEnding stream) : stream.current.kind ≠ .eof := fun ended => by
  rw [AtEnding, ended] at ending
  exact absurd ending (by decide)

theorem AtEnding.of_begins {step : Step Node} (ensures : step.Ensures depth stream .due .read (Begins token))
    (ran : step = ⟨.done node, rest, found⟩) : AtEnding rest := by
  subst ran
  obtain ⟨word, spans, _, _, _, formed⟩ := ensures.read node rfl
  exact formed.ends rfl nofun spans.last

/-- Within a number of levels, expressions ensure that. -/
theorem expression_ensures (levels : Nat) : Nested.Ensures (expression .standard levels) levels := by
  induction levels with
  | zero => exact fun _ _ => .strike
  | succ levels ih =>
    intro strength stream
    apply (ih.opened stream).andThen
    rintro left _ rest ⟨more, rfl, formed⟩
    refine (ih.extended strength left).imp fun node later extends' => ?_
    exact ⟨more ++ later, rfl, extends' _ formed⟩

/-- No limit is struck that is larger than the number of tokens ahead. -/
theorem expression_unstruck (deep : stream.count < levels) :
    ¬ ((expression .standard levels strength).run stream).Strikes :=
  (expression_ensures levels strength stream).unstruck deep

theorem opened_unstruck (deep : stream.count ≤ levels) :
    ¬ ((opened .standard (expression .standard levels)).run stream).Strikes :=
  ((expression_ensures levels).opened stream).unstruck (Nat.lt_succ_of_le deep)

end Mana.Grammar
