import Mana.Proofs.Grammar.Climbing

/-! Chains of operations. Operands with operators between them are one expression, whatever their number, and it is
grouped by splitting the chain at the last one of its weakest operators, over and over. -/
namespace Mana

open Grammar

/-- The source is one statement without faults, an expression that says what the tree does, within every limit on
nesting that is not struck. -/
def Text.Means (source : Text) (tree : Node) : Prop :=
  ∀ limit, (parseWithin limit source).Unstruck → (parseWithin limit source).diagnostics = [] ∧
    ∃ statement, (parseWithin limit source).program.statements = [statement] ∧
      statement.Says (.expressionStatement none tree)

/-- What is read as an expression up to the end of a source is what the source means. -/
theorem Text.means_of_yields {source : Text} {stop : Location}
    (yields : ((Grammar.expression .standard levels Level.lowest.strength).run (scan source)).Yields tree
      (.ofList [] stop))
    (deep : (scan source).count < levels) : source.Means tree := by
  intro limit unstruck
  obtain ⟨node, rest, ran, alike, after⟩ := statement_of_expression yields rfl
  obtain ⟨diagnostics, statements⟩ := Parsed.ofStream_statement ran (by rw [after]; rfl)
  rw [Parsed.ofStream_deep unstruck deep] at diagnostics statements
  exact ⟨diagnostics, node, statements, alike⟩

/-- A source of operands with operators between them means the one tree that the chain is grouped to. -/
theorem chain_grouped {source : Text} {first : Operand} {others : List (Kind × Operand)} (firstSound : first.Sound)
    (sound : ChainSound others) (words : source.lexemes = first.lexemes ++ chainLexemes others) :
    ∃ tree, (∀ other, Grouped first.tree (chainTrees others) other ↔ other = tree) ∧ source.Means tree := by
  have leads := TokenStream.Leads.scan source
  rw [words] at leads
  have deep : (scan source).count < (scan source).count + 1 := Nat.lt_succ_self _
  obtain ⟨taken, left, tree, beyond, rfl, _, weak, grouped, yields, follows⟩ :=
    expression_climbs _ Level.lowest.strength first others _ _ deep (by decide) firstSound sound rfl leads
  obtain rfl : left = [] := by
    cases left with
    | nil => rfl
    | cons entry left =>
      have binds := (binary_weak (sound entry (by simp)).1).1
      have bound := weak entry rfl
      omega
  rw [List.append_nil]
  rw [follows.eq_rest] at yields
  refine ⟨tree, fun other => ⟨fun same => same.unique grouped, ?_⟩, Text.means_of_yields yields deep⟩
  rintro rfl
  exact grouped

theorem derives_name {name : Text} (own : (scan name).ahead = [token]) (kind : token.kind = .ident) :
    Derives [.part .primary] (scan name).ahead ∧ Derives [.part .expression] (scan name).ahead := by
  have primary : Derives [.part .primary] [token] :=
    .part [.token .ident] List.mem_cons_self
      (.token kind (fun integer => absurd (kind.symm.trans integer) (by decide)) .nil)
  have operand : Derives ([.part .primary] ++ [.calls, .operations]) ([token] ++ []) :=
    primary.append (.enough (.enough .nil))
  rw [own]
  exact ⟨primary, .part _ (List.mem_singleton.mpr rfl) (.part _ (List.mem_singleton.mpr rfl) (.enough operand))⟩

/-- A call is made before it is negated, a product before a difference, and the first difference before the last. -/
theorem chain_grouped_differences : Text.Means "-a(b) - c * d - e".toList
    (.binary none
      (.binary none
        (.unary none ['-'] (.call none (Text.expression ['a']) [Text.expression ['b']]))
        ['-'] (.binary none (Text.expression ['c']) ['*'] (Text.expression ['d'])))
      ['-'] (Text.expression ['e'])) := by
  have firstSound : Operand.Sound ⟨[.minus], ['a'], [[['b']]]⟩ := by
    refine ⟨by decide, (derives_name rfl rfl).1, fun arguments call argument member => ?_⟩
    obtain rfl := List.mem_singleton.mp call
    obtain rfl := List.mem_singleton.mp member
    exact (derives_name rfl rfl).2
  have sound : ChainSound [(.minus, ⟨[], ['c'], []⟩), (.asterisk, ⟨[], ['d'], []⟩), (.minus, ⟨[], ['e'], []⟩)] := by
    refine List.forall_mem_cons.mpr ⟨?_, List.forall_mem_cons.mpr ⟨?_, List.forall_mem_singleton.mpr ?_⟩⟩
    all_goals exact ⟨by decide, nofun, (derives_name rfl rfl).1, nofun⟩
  obtain ⟨tree, grouped, means⟩ := chain_grouped firstSound sound
    (show Text.lexemes "-a(b) - c * d - e".toList = _ by decide)
  have product : Grouped (Text.expression ['c']) [(.asterisk, Text.expression ['d'])] _ :=
    @Grouped.operation _ _ _ [] [] _ _ nofun nofun (.operand _) (.operand _)
  have same := (grouped _).mp (@Grouped.operation _ _ _ [(.minus, _), (.asterisk, _)] [] .minus _ (by decide) nofun
    (@Grouped.operation _ _ _ [] [(.asterisk, _)] .minus _ nofun (by decide) (.operand _) product) (.operand _))
  exact same ▸ means

end Mana
