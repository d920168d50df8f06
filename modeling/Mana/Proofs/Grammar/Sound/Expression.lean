import Mana.Proofs.Grammar.Sound.Statement

/-! Soundness of the forms of expressions, and of whole programs within any limit on nesting. -/
namespace Mana.Grammar

open Parse

variable {stream : TokenStream}

/-! Items between commas, up to a closing token. -/

theorem judged_seriesRound {item : Parse Node} {form : Form}
    (judged : ∀ stream, item.Judged .due .read (Words [form]) stream) :
    (seriesRound item).Judged .read .read
      (Gain.Prolongs fun word _ => Derives [.many [.token .comma, form]] word) stream := by
  refine .upcoming ?_
  split
  · rename_i comma
    have here : stream.advanced.current.kind = .comma := stream.upcoming_eq ▸ comma
    have item (node : Node) (word : List Token) (next : Token) (derives : Derives [form] word) :
        (Gain.item node).Prolongs (fun word _ => Derives [.many [.token .comma, form]] word)
          (stream.advanced.current :: word) next := by
      refine ⟨List.cons_ne_nil _ _, fun later _ more => .again (.token here ?_ (derives.append more))⟩
      exact fun int => by rw [here] at int; cases int
    refine .advance (.take (by rw [here]; decide) (.advance ((judged _).bind ?_ ?_)))
    · exact fun node word next derives => .of_member _ _ (item node word next derives)
    · intro node word rest derives
      refine .pure _ ?_
      rw [List.append_nil]
      exact item node word _ derives
  · exact .pure _ (.enough .nil)

theorem judged_series {item : Parse Node} {form : Form}
    (judged : ∀ stream, item.Judged .due .read (Words [form]) stream)
    (plain : closing ≠ .eof ∧ closing ≠ .int) :
    (series item closing).Judged .read .read (Words [.series form, .token closing]) stream := by
  refine .upcoming ?_
  split
  · rename_i same
    refine .advance ((judged_plain (stream.upcoming_eq ▸ same) plain (judged_done _)).imp ?_)
    exact fun _ _ _ derives => .without derives
  · refine .advance (Judged.imp ?_ fun _ _ _ derives => .within derives)
    apply judged_then (judged _) (by simp [plain.1])
    intro first rest
    have others : (collect (seriesRound item)).Judged .read .read (Words [.many [.token .comma, form]]) rest :=
      .collect ⟨[], ⟨.comma, [], .start⟩, by simp, .enough .nil⟩ fun _ => judged_seriesRound judged
    apply judged_then others (by simp [plain.1])
    intro others rest
    exact judged_expect_plain (by simp [plain.1]) plain (judged_done _)

theorem judged_parameter : parameter.Judged .due .read (Words [.token .ident]) stream := by
  refine .current ?_
  split
  · rename_i named
    exact judged_plain named (by decide) (judged_done _)
  · exact .complain (viable_words (by simp)) _ rfl

theorem judged_integer (kind : stream.current.kind = .int) :
    integer.Judged .due .read (Words [.token .int]) stream := by
  refine .current ?_
  split
  · rename_i value read
    exact judged_token kind (by decide) (fun _ => integerValue?_iff.mp ⟨value, read⟩) (judged_done _)
  · exact .complain (viable_words (by simp)) _ rfl

namespace Nested.Judges

variable {nested : Nested} (judges : nested.Judges)
include judges

theorem grouped (kind : stream.current.kind = .lparen) :
    (grouped nested).Judged .due .read (Words [.part .primary]) stream := by
  apply judged_rule [.token .lparen, .part .expression, .token .rparen] (by simp [Category.rules])
  refine judged_plain kind (by decide) (.advance ?_)
  apply judged_then (judges.whole _) (by simp)
  intro inner rest
  exact judged_expect_plain (by simp) (by decide) (judged_done _)

theorem alternative (finish : Option Node → Node) :
    (do
      if (← upcoming).kind = .elseKeyword then
        advance
        expect .lbrace
        let alternative ← Grammar.block nested
        return finish (some alternative)
      else return finish none : Parse Node).Judged .read .read
        (Words [.optional [.token .elseKeyword, .part .block]]) stream := by
  refine .upcoming ?_
  split
  · rename_i same
    refine .advance (Judged.imp ?_ fun _ _ _ derives => .within derives)
    apply judged_plain (stream.upcoming_eq ▸ same) (by decide)
    apply judged_expect (viable_words (by simp))
    intro brace
    apply judged_then (judges.block (TokenStream.upcoming_eq _ ▸ brace)) (by simp)
    intro alternative rest
    exact judged_done _
  · exact .pure _ (.without .nil)

theorem conditional (kind : stream.current.kind = .ifKeyword) :
    (conditional nested).Judged .due .read (Words [.part .primary]) stream := by
  apply judged_rule [.token .ifKeyword, .token .lparen, .part .expression, .token .rparen, .part .block,
    .optional [.token .elseKeyword, .part .block]] (by simp [Category.rules])
  refine .current (judged_plain kind (by decide) ?_)
  refine judged_expect_plain (by simp) (by decide) (.advance ?_)
  apply judged_then (judges.whole _) (by simp)
  intro condition rest
  apply judged_expect_plain (by simp) (by decide)
  apply judged_expect (viable_words (by simp))
  intro brace
  apply judged_then (judges.block (TokenStream.upcoming_eq _ ▸ brace)) (by simp)
  intro consequence rest
  exact judges.alternative (.conditional (some stream.current) condition consequence)

theorem function (kind : stream.current.kind = .function) :
    (function nested).Judged .due .read (Words [.part .primary]) stream := by
  apply judged_rule [.token .function, .token .lparen, .series (.token .ident), .token .rparen, .part .block]
    (by simp [Category.rules])
  refine .current (judged_plain kind (by decide) ?_)
  apply judged_expect_plain (by simp) (by decide)
  apply judged_bind (judged_series (fun _ => judged_parameter) (by decide)) (by simp)
  intro parameters rest
  apply judged_expect (viable_words (by simp))
  intro brace
  apply judged_then (judges.block (TokenStream.upcoming_eq _ ▸ brace)) (by simp)
  intro body rest
  exact judged_done _

theorem unary (kind : stream.current.kind ∈ unaryOperators) :
    (unary nested).Judged .due .read (fun _ word _ => Extensible word) stream := by
  have going : stream.current.kind ≠ .eof := ne_eof_of_unary kind
  refine .current (.take going (.advance ((judges _ _).bind ?_ ?_)))
  · exact fun right word next extensible => .of_member right next (extensible.unary kind)
  · exact fun right word rest extensible => .pure _ ((List.append_nil word).symm ▸ extensible.unary kind)

theorem opened :
    (opened .standard nested).Judged .due .read (fun _ word _ => Extensible word) stream := by
  have primary {parse : Parse Node} (judged : parse.Judged .due .read (Words [.part .primary]) stream) :
      parse.Judged .due .read (fun _ word _ => Extensible word) stream :=
    judged.imp fun _ _ _ => Extensible.of_primary
  refine .current ?_
  split
  · rename_i opening found
    rcases Rules.opening_cases found with ⟨rfl, kind⟩ | ⟨rfl, kind⟩ | ⟨rfl, kind⟩ | ⟨rfl, kind⟩ |
      ⟨rfl, kind⟩ | ⟨rfl, kind⟩ | ⟨rfl, kind⟩
    · refine primary (judged_rule [.token .ident] (by simp [Category.rules]) ?_)
      exact .current (judged_plain kind (by decide) (judged_done _))
    · exact primary (judged_rule [.token .int] (by simp [Category.rules]) (judged_integer kind))
    · refine primary (judged_rule [.token stream.current.kind] ?_ ?_)
      · simp only [List.mem_cons, List.not_mem_nil, or_false] at kind
        rcases kind with same | same <;> simp [Category.rules, same]
      · refine .current (judged_plain rfl ?_ (judged_done _))
        simp only [List.mem_cons, List.not_mem_nil, or_false] at kind
        rcases kind with same | same <;> simp [same]
    · exact judges.unary kind
    · exact primary (judges.grouped kind)
    · exact primary (judges.conditional kind)
    · exact primary (judges.function kind)
  · obtain ⟨word, derives, genuine⟩ := completable [.part .primary] (by simp)
    exact .complain ⟨word, .boolean none true, stream.current, genuine, .of_primary derives⟩ _ rfl

end Nested.Judges

/-- The word extends every expression that may be extended. -/
def Extending (word : List Token) : Prop := ∀ earlier, Extensible earlier → Extensible (earlier ++ word)

namespace Nested.Judges

variable {nested : Nested} (judges : nested.Judges)
include judges

theorem binary (kind : stream.current.kind ∈ binaryOperators) (left : Node) :
    (binary nested left).Judged .due .read (fun _ word _ => word ≠ [] ∧ Extending word) stream := by
  have going : stream.current.kind ≠ .eof := ne_eof_of_binary kind
  have extending (word : List Token) (right : Extensible word) :
      stream.current :: word ≠ [] ∧ Extending (stream.current :: word) :=
    ⟨List.cons_ne_nil _ _, fun _ extensible => extensible.binary kind right⟩
  refine .current (.take going (.advance ((judges _ _).bind ?_ ?_)))
  · exact fun right word next extensible => .of_member right next (extending word extensible)
  · exact fun right word rest extensible => .pure _ ((List.append_nil word).symm ▸ extending word extensible)

theorem call (kind : stream.current.kind = .lparen) (callee : Node) :
    (call nested callee).Judged .due .read (fun _ word _ => word ≠ [] ∧ Extending word) stream := by
  have judged : (Grammar.call nested callee).Judged .due .read
      (Words [.token .lparen, .series (.part .expression), .token .rparen]) stream := by
    refine .current (judged_plain kind (by decide) ?_)
    exact judged_bind (judged_series judges.whole (by decide)) (by simp) fun arguments rest => judged_done _
  refine judged.imp fun _ word _ derives => ⟨?_, fun _ extensible => extensible.call derives⟩
  rintro rfl
  exact Derives.not_token_nil derives

theorem extendedRound (strength : Int) (left : Node) :
    (extendedRound .standard nested strength left).Judged .read .read
      (Round.Prolongs fun _ word _ => Extending word) stream := by
  have empty : Extending [] := fun _ extensible => (List.append_nil _).symm ▸ extensible
  have again (longer : Node) (word : List Token) (next : Token) (read : word ≠ [] ∧ Extending word) :
      (Round.again longer id : Round Node Node).Prolongs (fun _ word _ => Extending word) word next :=
    ⟨read.1, fun _ later _ more earlier extensible =>
      List.append_assoc .. ▸ more _ (read.2 earlier extensible)⟩
  refine .upcoming ?_
  split
  · exact .pure _ empty
  · split
    · exact .pure _ empty
    · rename_i extension found
      have parse : (extension.parse nested left).Judged .due .read
          (fun _ word _ => word ≠ [] ∧ Extending word) stream.advanced := by
        rw [TokenStream.upcoming_eq] at found
        rcases Rules.extension_cases found with ⟨rfl, kind⟩ | ⟨rfl, kind⟩
        · exact judges.binary kind left
        · exact judges.call kind left
      refine .advance (parse.bind (fun longer word next read => .of_member _ _ (again longer word next read)) ?_)
      exact fun longer word rest read => .pure _ ((List.append_nil word).symm ▸ again longer word _ read)

theorem extended (strength : Int) (left : Node) :
    (extended .standard nested strength left).Judged .read .read (fun _ word _ => Extending word) stream :=
  .iterate ⟨[], left, ⟨.eof, [], .start⟩, by simp, fun _ extensible => (List.append_nil _).symm ▸ extensible⟩
    (fun left _ => judges.extendedRound strength left) left

end Nested.Judges

/-- Within any limit on nesting, an expression is judged to be one. -/
theorem expression_judges (levels : Nat) : Nested.Judges (expression .standard levels) := by
  induction levels with
  | zero => exact fun strength stream => .struck (.inl rfl)
  | succ levels ih =>
    intro strength stream
    apply ih.opened.bind (fun left word next extensible => .of_member left next extensible)
    exact fun left word rest extensible => (ih.extended strength left).imp fun _ _ _ extending =>
      extending word extensible

/-- Within any limit on nesting, a program is judged to be one up to the end of its tokens. -/
theorem program_judged (levels : Nat) (stream : TokenStream) :
    (program (expression .standard levels)).Judged .due .due (fun _ => Statements .eof) stream :=
  (expression_judges levels).program

end Mana.Grammar
