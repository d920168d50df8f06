import Mana.Proofs.Grammar.Complete.Statement
import Mana.Proofs.Parse.Tracks
import Mana.Proofs.Tree.Says

/-! Statements and blocks on streams side by side. Where the shorter stream ends in a statement, that
mentions the end, or might have gone on into what is beyond. -/
namespace Mana

namespace Pairing

open Grammar

/-- What is beyond neither goes on with an expression of the strength, nor with an operand or a
conditional in it. -/
structure Meets (pairing : Pairing) (strength : Int) : Prop where
  halts : Halts strength pairing.beyond.current
  operand : Halts Level.unary.strength pairing.beyond.current
  notElse : pairing.beyond.current.kind ≠ .elseKeyword

theorem Meets.mono {pairing : Pairing} (meets : pairing.Meets weaker) (le : weaker ≤ strength) :
    pairing.Meets strength where
  halts := Or.imp_right (Or.imp_left fun bound => Int.le_trans bound le) meets.halts
  operand := meets.operand
  notElse := meets.notElse

theorem Meets.of_kind {pairing : Pairing} (ends : pairing.beyond.current.kind ∈ [.comma, .rparen, .rbrace, .eof]) :
    pairing.Meets Level.lowest.strength := by
  have all : ∀ kind ∈ [Kind.comma, .rparen, .rbrace, .eof], kind.strength ≤ Level.lowest.strength ∧
      kind.strength ≤ Level.unary.strength ∧ kind ≠ .elseKeyword := by decide
  obtain ⟨weak, weaker, notElse⟩ := all _ ends
  exact ⟨.inr (.inl weak), .inr (.inl weaker), notElse⟩

/-- A statement has ended with its semicolon, or what is beyond does not go on with it. -/
def Seals (pairing : Pairing) (rest : TokenStream) : Prop :=
  rest.current.kind = .semicolon ∨
    pairing.beyond.current.kind ≠ .semicolon ∧ pairing.Meets Level.lowest.strength

end Pairing

namespace Grammar

open Parse

/-- The other node says the same. -/
def Alike (node other : Node) : Prop := other.Says node

theorem sayAll_of_alike {nodes others : List Node} (all : List.Forall₂ Alike nodes others) :
    Node.SayAll others nodes := by
  induction all with
  | nil => exact .nil
  | cons first _ ih => exact .cons first ih

/-- Nested expressions track. -/
def Nested.Tracks (nested : Nested) (pairing : Pairing) : Prop :=
  ∀ strength stream other, pairing.Abreast stream other →
    Step.Tracks pairing Alike (fun _ => pairing.Meets strength) ((nested strength).run stream)
      ((nested strength).run other)

variable {pairing : Pairing} {stream other : TokenStream} {meets : TokenStream → Prop}

theorem upcoming_of_last (last : stream.count ≤ 1) : stream.upcoming.kind = .eof := by
  by_contra going
  have more := TokenStream.one_lt_count going
  omega

/-- Where one token is ahead, another one is wanted in vain. -/
theorem mentions_expect {follow : Unit → Parse α} (going : wanted ≠ .eof) (last : stream.count ≤ 1) :
    ((expect wanted >>= follow).run stream).MentionsEnd := by
  have ended := upcoming_of_last last
  rw [run_expect_bind, if_neg (by rw [ended]; exact going.symm)]
  exact ⟨_, List.mem_singleton.mpr rfl, ended⟩

theorem tracks_expect {same : α → α → Prop} {follow follow' : Unit → Parse α} (going : wanted ≠ .eof)
    (abreast : pairing.Abreast stream other) (covers : pairing.Covers 0 stream)
    (second : pairing.Abreast stream.advanced other.advanced → pairing.Covers 0 stream.advanced →
      stream.advanced.current.kind = wanted →
        Step.Tracks pairing same meets ((follow ()).run stream.advanced) ((follow' ()).run other.advanced)) :
    Step.Tracks pairing same meets ((expect wanted >>= follow).run stream)
      ((expect wanted >>= follow').run other) := by
  by_cases more : pairing.Covers 1 stream
  · have pairs := abreast.upcoming more
    rw [run_expect_bind, run_expect_bind, pairs.kind]
    split
    · rename_i same
      exact second (abreast.advanced covers) more.advanced same
    · exact .failed abreast covers (.cons ⟨rfl, pairs.located⟩ .nil)
  · obtain ⟨apart, last⟩ := Pairing.not_covers_iff.mp more
    exact .mentions apart (mentions_expect going last)

theorem tracks_finished {step later : Step Node} {finish finish' : Node → Node}
    (first : step.Tracks pairing Alike (fun _ => pairing.Meets Level.lowest.strength) later)
    (ends : ∀ node rest found, step = ⟨.done node, rest, found⟩ → AtEnding rest)
    (alike : ∀ node node', Alike node node' → Alike (finish node) (finish' node')) :
    Step.Tracks pairing Alike pairing.Seals
      (step.andThen fun value => (acceptSemicolon >>= fun _ => pure (finish value)).run)
      (later.andThen fun value => (acceptSemicolon >>= fun _ => pure (finish' value)).run) := by
  have unsealed (rest : TokenStream) (ending : AtEnding rest)
      (open' : ¬ (pairing.beyond.current.kind ≠ .semicolon ∧ pairing.Meets Level.lowest.strength)) :
      ¬ pairing.Seals rest := by
    rintro (semicolon | met)
    · rw [AtEnding, semicolon] at ending
      exact absurd ending (by decide)
    · exact open' met
  cases first with
  | failed abreast covers reports => exact .failed abreast covers reports
  | struck abreast reports => exact .struck abreast reports
  | stranded apart stranded =>
    refine .stranded apart ?_
    cases stranded with
    | mentions mentions => exact .mentions (mentions.andThen _)
    | arrives node rest found ran last unmet =>
      have ending := ends node rest found ran
      have ended := upcoming_of_last (le_of_eq last)
      rw [ran, Step.andThen_done, run_acceptSemicolon_bind, if_neg (by rw [ended]; decide)]
      exact .arrives _ rest (found ++ []) rfl last (unsealed rest ending fun met => unmet met.2)
  | @done node node' rest rest' found found' nodes abreast covers reports =>
    have ending := ends node rest found rfl
    rw [Step.andThen_done, Step.andThen_done]
    refine .since ?_ reports
    rw [run_acceptSemicolon_bind, run_acceptSemicolon_bind]
    by_cases more : pairing.Covers 1 rest
    · rw [(abreast.upcoming more).kind]
      split
      · exact .done (alike _ _ nodes) (abreast.advanced covers) more.advanced .nil
      · exact .done (alike _ _ nodes) abreast covers .nil
    · obtain ⟨apart, few⟩ := Pairing.not_covers_iff.mp more
      have some := covers.resolve_left apart
      have last : rest.count = 1 := by omega
      rw [if_neg (by rw [upcoming_of_last few]; decide), abreast.upcoming_beyond last]
      split
      · rename_i semicolon
        exact .stranded apart (.arrives _ rest [] rfl last (unsealed rest ending fun met => met.1 semicolon))
      · exact .done (alike _ _ nodes) abreast covers .nil

namespace Nested.Tracks

variable {nested : Nested} (tracks : nested.Tracks pairing) (ensures : nested.Ensures depth)
  (abreast : pairing.Abreast stream other) (covers : pairing.Covers 0 stream)
include tracks ensures abreast covers

theorem letStatement : Step.Tracks pairing Alike pairing.Seals ((letStatement nested).run stream)
    ((letStatement nested).run other) := by
  refine tracks_expect (by decide) abreast covers fun abreast covers _ => ?_
  have literal := (abreast.current covers).literal
  refine tracks_expect (by decide) abreast covers fun abreast covers _ => ?_
  apply tracks_finished (tracks _ _ _ (abreast.advanced covers))
  · exact fun node rest found => .of_begins (ensures _ _)
  · intro value value' alike
    rw [literal]
    exact .letStatement (.identifier _) alike

theorem returnStatement : Step.Tracks pairing Alike pairing.Seals ((returnStatement nested).run stream)
    ((returnStatement nested).run other) := by
  apply tracks_finished (tracks _ _ _ (abreast.advanced covers))
  · exact fun node rest found => .of_begins (ensures _ _)
  · exact fun value value' alike => .returnStatement alike

omit covers in
theorem expressionStatement : Step.Tracks pairing Alike pairing.Seals ((expressionStatement nested).run stream)
    ((expressionStatement nested).run other) := by
  apply tracks_finished (tracks _ _ _ abreast)
  · exact fun node rest found => .of_begins (ensures _ _)
  · exact fun value value' alike => .expressionStatement alike

theorem statement : Step.Tracks pairing Alike pairing.Seals ((statement nested).run stream)
    ((statement nested).run other) := by
  simp only [Grammar.statement, run_current_bind, (abreast.current covers).kind]
  split
  · exact tracks.letStatement ensures abreast covers
  · split
    · exact tracks.returnStatement ensures abreast covers
    · exact tracks.expressionStatement ensures abreast

end Nested.Tracks

/-- Where both streams go on after a statement that was given up. -/
theorem abreast_recovered {start start' : TokenStream} (starts : pairing.Abreast start start')
    (begins : pairing.Covers 0 start) (abreast : pairing.Abreast stream other) (stops : List Kind)
    (reaches : pairing.Covers 0 (recovered start stops stream)) :
    pairing.Abreast (recovered start stops stream) (recovered start' stops other) := by
  unfold recovered at reaches ⊢
  simp only [(starts.current begins).kind, starts.count_eq_iff abreast]
  split
  · exact abreast
  · rename_i given
    rw [if_neg given] at reaches
    exact abreast.skippedTo _ reaches

theorem mentions_block {nested : Nested} (empty : stream.count = 0) :
    ((collect (blockRound nested)).run stream).MentionsEnd := by
  rw [Block.run_ended (TokenStream.current_kind_of_count empty)]
  exact ⟨_, List.mem_singleton.mpr rfl, rfl⟩

namespace Block

variable {nested : Nested}

theorem mentions {needs : TokenStream → Prop} (going : stream.current.kind ≠ .rbrace ∧ stream.current.kind ≠ .eof)
    (within : ((statement nested).run stream).rest.Within stream)
    (stranded : ((statement nested).run stream).Stranded needs) :
    ((collect (blockRound nested)).run stream).MentionsEnd := by
  rcases ran : (statement nested).run stream with ⟨outcome, rest, found⟩
  rw [ran] at stranded within
  cases stranded with
  | mentions mentions =>
    cases outcome with
    | done node => exact run_done going within ran ▸ .of_since mentions _
    | failed => exact run_failed going within ran ▸ .of_since mentions _
    | struck => exact run_struck going ran ▸ mentions
  | arrives node _ _ same last _ =>
    cases same
    rw [run_done going within ran]
    have empty : rest.advanced.count = 0 := by rw [TokenStream.advanced_count, last]
    exact ((mentions_block empty).map _).since _

theorem tracks_recovered {rest rest' : TokenStream} (starts : pairing.Abreast stream other)
    (begins : pairing.Covers 0 stream) (abreast : pairing.Abreast rest rest')
    (later : pairing.Abreast (recovered stream [.rbrace] rest).advanced (recovered other [.rbrace] rest').advanced →
      Step.Tracks pairing (List.Forall₂ Alike) meets
        ((collect (blockRound nested)).run (recovered stream [.rbrace] rest).advanced)
        ((collect (blockRound nested)).run (recovered other [.rbrace] rest').advanced)) :
    Step.Tracks pairing (List.Forall₂ Alike) meets
      (if (recovered stream [.rbrace] rest).current.kind = .rbrace then
        ⟨.done [], recovered stream [.rbrace] rest, []⟩
      else (collect (blockRound nested)).run (recovered stream [.rbrace] rest).advanced)
      (if (recovered other [.rbrace] rest').current.kind = .rbrace then
        ⟨.done [], recovered other [.rbrace] rest', []⟩
      else (collect (blockRound nested)).run (recovered other [.rbrace] rest').advanced) := by
  by_cases goes : pairing.Covers 0 (recovered stream [.rbrace] rest)
  · have left := abreast_recovered starts begins abreast [.rbrace] goes
    rw [(left.current goes).kind]
    split
    · exact .done .nil left goes .nil
    · exact later (left.advanced goes)
  · obtain ⟨apart, few⟩ := Pairing.not_covers_iff.mp goes
    have empty := Nat.le_zero.mp few
    have last := TokenStream.current_kind_of_count empty
    rw [if_neg (by rw [last]; decide)]
    exact .mentions apart (mentions_block (by rw [TokenStream.advanced_count, empty]))

end Block

namespace Nested.Tracks

variable {nested : Nested} (tracks : nested.Tracks pairing) (ensures : nested.Ensures depth)
include tracks ensures

/-- The statements of a block track up to its closing brace. -/
theorem statements (abreast : pairing.Abreast stream other) :
    Step.Tracks pairing (List.Forall₂ Alike) meets ((collect (blockRound nested)).run stream)
      ((collect (blockRound nested)).run other) := by
  induction stream using TokenStream.induct generalizing other with
  | fewer stream ih =>
    by_cases covers : pairing.Covers 0 stream
    · have pairs := abreast.current covers
      by_cases closed : stream.current.kind = .rbrace
      · rw [Block.run_closed closed, Block.run_closed (pairs.kind.trans closed)]
        exact .done .nil abreast covers .nil
      · by_cases ended : stream.current.kind = .eof
        · rw [Block.run_ended ended, Block.run_ended (pairs.kind.trans ended)]
          exact .failed abreast covers (.cons ⟨rfl, pairs.located⟩ .nil)
        · have going : stream.current.kind ≠ .rbrace ∧ stream.current.kind ≠ .eof := ⟨closed, ended⟩
          have going' : other.current.kind ≠ .rbrace ∧ other.current.kind ≠ .eof := by rwa [pairs.kind]
          have ahead := TokenStream.count_pos ended
          have within := (ensures.statement stream).within
          have within' := (ensures.statement other).within
          have one := tracks.statement ensures abreast covers
          rcases ran : (Grammar.statement nested).run stream with ⟨outcome, rest, found⟩
          rcases ran' : (Grammar.statement nested).run other with ⟨outcome', rest', found'⟩
          rw [ran] at one within
          rw [ran'] at one within'
          cases one with
          | struck later reports =>
            rw [Block.run_struck going ran, Block.run_struck going' ran']
            exact .struck later reports
          | done alike later reaches reports =>
            rw [Block.run_done going within ran, Block.run_done going' within' ran']
            have others := ih _ (within.advanced_count_lt ahead) (later.advanced reaches)
            exact .since (.map (others.imp_same fun _ _ all => .cons alike all)) reports
          | failed later _ reports =>
            rw [Block.run_failed going within ran, Block.run_failed going' within' ran']
            have shorter := recovered_shorter stream [.rbrace] within ended
            have goes := Block.tracks_recovered abreast covers later fun left => ih _ shorter left
            exact .since goes reports
          | stranded apart stranded => exact .mentions apart (Block.mentions going (ran ▸ within) (ran ▸ stranded))
    · obtain ⟨apart, few⟩ := Pairing.not_covers_iff.mp covers
      exact .mentions apart (mentions_block (Nat.le_zero.mp few))

theorem block (abreast : pairing.Abreast stream other) (covers : pairing.Covers 0 stream) :
    Step.Tracks pairing Alike meets ((block nested).run stream) ((block nested).run other) := by
  have tracked : Step.Tracks pairing (List.Forall₂ Alike) (fun _ => True)
      ((collect (blockRound nested)).run stream.advanced) ((collect (blockRound nested)).run other.advanced) :=
    tracks.statements ensures (abreast.advanced covers)
  apply tracked.andThen
  · exact fun nodes nodes' rest rest' all abreast covers => .done (.block (sayAll_of_alike all)) abreast covers .nil
  · exact fun _ _ _ _ unmet => absurd trivial unmet

theorem expectBlock {same : α → α → Prop} {follow follow' : Node → Parse α}
    (abreast : pairing.Abreast stream other) (covers : pairing.Covers 0 stream)
    (second : ∀ body body' rest rest', Alike body body' → pairing.Abreast rest rest' → pairing.Covers 0 rest →
      Step.Tracks pairing same meets ((follow body).run rest) ((follow' body').run rest')) :
    Step.Tracks pairing same meets ((expect .lbrace >>= fun _ => Grammar.block nested >>= follow).run stream)
      ((expect .lbrace >>= fun _ => Grammar.block nested >>= follow').run other) := by
  refine tracks_expect (by decide) abreast covers fun abreast covers _ => ?_
  have tracked : Step.Tracks pairing Alike (fun _ => True) ((Grammar.block nested).run stream.advanced)
      ((Grammar.block nested).run other.advanced) := tracks.block ensures abreast covers
  exact tracked.andThen second fun _ _ _ _ unmet => absurd trivial unmet

end Nested.Tracks

end Grammar

end Mana
