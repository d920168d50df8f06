import Mana.Proofs.Grammar.Parsed
import Mana.Proofs.Token.Cut

/-! Where trees come from. Every node of a program keeps a token of the source and says just what that token allows,
and the tokens of a program stand in the order of the source, whatever was wrong with it. -/
namespace Mana

namespace Node

/-- Statements are let, return and expression statements. -/
def IsStatement : Node → Prop
  | letStatement .. => True
  | returnStatement .. => True
  | expressionStatement .. => True
  | _ => False

/-- What a token that a node keeps must be for the node to be of its class, and what the node may say then. -/
def ComesFrom : Node → Token → Prop
  | bare .., _ => False
  | program _ statements, _ => ∀ statement ∈ statements, statement.IsStatement
  | letStatement .., token => token.kind = .letKeyword
  | returnStatement .., token => token.kind = .returnKeyword
  | expressionStatement .., _ => True
  | block _ statements, token => token.kind = .lbrace ∧ ∀ statement ∈ statements, statement.IsStatement
  | identifier _ name, token => token.kind = .ident ∧ name = token.literal ∧ IsName name
  | integer _ value, token =>
    token.kind = .int ∧ IsNumeral token.literal value ∧ 0 ≤ value ∧ value ≤ 0x7fffffffffffffff
  | boolean _ value, token => token.kind = if value then .trueKeyword else .falseKeyword
  | unary _ operator _, token =>
    token.kind ∈ unaryOperators ∧ operator = token.literal ∧ operator ∈ unaryOperators.map Kind.spelling
  | binary _ _ operator _, token =>
    token.kind ∈ binaryOperators ∧ operator = token.literal ∧ operator ∈ binaryOperators.map Kind.spelling
  | conditional .., token => token.kind = .ifKeyword
  | function .., token => token.kind = .function
  | call .., token => token.kind = .lparen

variable {node : Node} {nodes : List Node} {word : List Token}

theorem Fits.isStatement (fits : node.Fits .statement) : node.IsStatement := by
  cases node with
  | letStatement => trivial
  | returnStatement => trivial
  | expressionStatement => trivial
  | bare => exact fits.elim
  | boolean => cases fits
  | identifier => exact absurd fits.1 (by simp)
  | _ => cases fits.1

theorem AllFit.isStatement (all : AllFit nodes .statement) : ∀ node ∈ nodes, node.IsStatement := by
  induction nodes with
  | nil => exact nofun
  | cons node nodes ih => exact List.forall_mem_cons.mpr ⟨all.1.isStatement, ih all.2⟩

/-- The nodes come from tokens of the word that they keep. -/
def ComeFrom (nodes : List Node) (word : List Token) : Prop :=
  ∀ node ∈ nodes, ∃ token ∈ word, node.token? = some token ∧ node.ComesFrom token

theorem ComeFrom.one (among : token ∈ word) (kept : node.token? = some token) (comes : node.ComesFrom token) :
    ComeFrom [node] word := List.forall_mem_singleton.mpr ⟨token, among, kept, comes⟩

theorem ComeFrom.mono (come : ComeFrom nodes word) (sub : word ⊆ more) : ComeFrom nodes more := by
  intro node member
  obtain ⟨token, among, found⟩ := come node member
  exact ⟨token, sub among, found⟩

theorem ComeFrom.cons (first : ComeFrom [node] word) (others : ComeFrom nodes word) : ComeFrom (node :: nodes) word :=
  List.forall_mem_cons.mpr ⟨first node List.mem_cons_self, others⟩

/-- What is read from genuine tokens comes from one of them. -/
theorem Formed.comesFrom (formed : Formed row place nodes word) (genuine : ∀ token ∈ word, token.Genuine) :
    ComeFrom nodes word := by
  induction formed with
  | letStatement keyword | returnStatement keyword | conditional keyword | conditionalElse keyword
  | function keyword => exact .one List.mem_cons_self rfl keyword
  | expressionStatement => exact .one List.mem_cons_self rfl trivial
  | block opens statements =>
    have all := statements.fits fun token member => genuine token (by simp [member])
    exact .one List.mem_cons_self rfl ⟨opens, all.isStatement⟩
  | name kind | identifier kind =>
    exact .one List.mem_cons_self rfl ⟨kind, rfl, (genuine _ List.mem_cons_self).isName kind⟩
  | integer kind read =>
    obtain ⟨bound, numeral⟩ := (genuine _ List.mem_cons_self).isNumeral kind read
    exact .one List.mem_cons_self rfl ⟨kind, numeral, by omega, by omega⟩
  | boolean kind =>
    refine .one List.mem_cons_self rfl ?_
    simp only [List.mem_cons, List.not_mem_nil, or_false] at kind
    rcases kind with same | same <;> simp [ComesFrom, same]
  | unary operator =>
    exact .one List.mem_cons_self rfl ⟨operator, rfl, (genuine _ List.mem_cons_self).spelled operator (.inl rfl)⟩
  | binary _ operator =>
    refine .one (List.mem_append_right _ List.mem_cons_self) rfl ⟨operator, rfl, ?_⟩
    exact (genuine _ (List.mem_append_right _ List.mem_cons_self)).spelled operator (.inr rfl)
  | grouped _ _ _ inner =>
    exact (inner fun token member => genuine token (by simp [member])).mono fun token member => by simp [member]
  | call _ opens => exact .one (List.mem_append_right _ List.mem_cons_self) rfl opens
  | noStatement | noItem | nothing => exact nofun
  | statement _ _ first others | item _ _ first others | another _ _ _ first others =>
    refine .cons ((first fun token member => genuine token (by simp [member])).mono ?_)
      ((others fun token member => genuine token (by simp [member])).mono ?_)
    · exact fun token member => by simp [member]
    · exact fun token member => by simp [member]

end Node

/-- However broken a source is, every node of its program keeps a token of the source, maybe the one at its end, and
comes from that. The tokens that the nodes keep stand in the order of the source. -/
theorem program_comes_from_source (limit : Nat) (source : Text) :
    (∀ node ∈ (parseWithin limit source).program.preorder, ∃ token ∈ (scan source).tokens,
        node.token? = some token ∧ node.ComesFrom token) ∧
      ((parseWithin limit source).program.tokens.map Token.location).Pairwise Location.Precedes := by
  obtain ⟨word, formed, among, _⟩ := Parsed.exists_formed limit (scan source)
  have genuine : ∀ token ∈ word, token.Genuine := fun token member => scan_genuine source token (among.subset member)
  rw [parseWithin, Parsed.program_eq]
  constructor
  · intro node member
    rw [Node.preorder] at member
    rcases List.mem_cons.mp member with rfl | below
    · exact ⟨_, (TokenStream.Within.refl _).current_mem, rfl, (formed.fits genuine).isStatement⟩
    · obtain ⟨place, part, own, inside⟩ := formed.each node below
      obtain ⟨token, here, found⟩ := own.comesFrom (fun token member => genuine token (inside member)) node
        List.mem_cons_self
      exact ⟨token, List.mem_append_left _ (among.subset (inside here)), found⟩
  · have kept := formed.tokens.trans (among.trans (List.sublist_append_left _ [(scan source).final]))
    exact (scanFrom_increasing .start source).sublist (kept.map Token.location)

/-- The integer after a statement that was given up. -/
theorem program_comes_from_source_given_up :
    Node.integer (some ⟨.int, "7".toList, ⟨1, 9⟩⟩) 7 ∈ (parseWithin 9 "let 5; -7".toList).program.preorder ∧
      ∃ token ∈ (scan "let 5; -7".toList).tokens,
        (Node.integer (some ⟨.int, "7".toList, ⟨1, 9⟩⟩) 7).token? = some token ∧
          (Node.integer (some ⟨.int, "7".toList, ⟨1, 9⟩⟩) 7).ComesFrom token := by
  have parsed : (parseWithin 9 "let 5; -7".toList).program =
      .program (some ⟨.letKeyword, "let".toList, ⟨1, 1⟩⟩)
        [.expressionStatement (some ⟨.minus, "-".toList, ⟨1, 8⟩⟩)
          (.unary (some ⟨.minus, "-".toList, ⟨1, 8⟩⟩) "-".toList
            (.integer (some ⟨.int, "7".toList, ⟨1, 9⟩⟩) 7))] := rfl
  have member : Node.integer (some ⟨.int, "7".toList, ⟨1, 9⟩⟩) 7 ∈
      (parseWithin 9 "let 5; -7".toList).program.preorder := by
    rw [parsed]
    simp [Node.preorder, Node.preorders]
  exact ⟨member, (program_comes_from_source 9 _).1 _ member⟩

end Mana
