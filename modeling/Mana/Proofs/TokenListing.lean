import Mana.Rendering
import Mana.Proofs.Text.Quoted

/-! Token listings lose nothing. Newlines delimit their lines and tabs the fields of a line, since no field holds an
unprintable character, and every field tells the part of the token that it shows. -/
namespace Mana

namespace Kind

theorem name_printable (kind : Kind) : ∀ c ∈ kind.name, isPrintable c = true := by
  have each : all.all (fun kind => kind.name.all isPrintable) = true := rfl
  exact List.all_eq_true.mp (List.all_eq_true.mp each kind kind.mem_all)

theorem name_injective {kind kind' : Kind} (same : kind.name = kind'.name) : kind = kind' :=
  Option.some.inj (by rw [← ofName?_name kind, ← ofName?_name kind', same])

end Kind

namespace Token

/-- Where a token is, as a listing shows it. -/
def place (token : Token) : Text := decimal token.location.line ++ [':'] ++ decimal token.location.column

/-- What the line of a token shows. -/
def fields (token : Token) : List Text := [token.place, token.kind.name, quoted token.literal]

theorem listed_eq_joined (token : Token) : token.listed = Text.joined ['\t'] token.fields := by
  simp [listed, fields, place, Text.joined, List.intercalate]

theorem place_printable (token : Token) : ∀ c ∈ token.place, isPrintable c = true := by
  refine List.forall_mem_append.mpr ⟨List.forall_mem_append.mpr ⟨decimal_printable _, ?_⟩, decimal_printable _⟩
  exact List.forall_mem_singleton.mpr (by decide)

theorem fields_printable (token : Token) : ∀ field ∈ token.fields, ∀ c ∈ field, isPrintable c = true :=
  List.forall_mem_cons.mpr ⟨token.place_printable,
    List.forall_mem_cons.mpr ⟨token.kind.name_printable,
      List.forall_mem_singleton.mpr (quoted_printable token.literal)⟩⟩

/-- A place tells line and column, since no numeral goes on with a colon. -/
theorem place_injective {token token' : Token} (same : token.place = token'.place) :
    token.location = token'.location := by
  have colon (rest : Text) : Undigited (':' :: rest) := .cons (by decide) rest
  simp only [place, List.append_assoc] at same
  obtain ⟨line, left⟩ := decimal_legible _ (colon _) (colon _) same
  have column := (decimal_legible _).eq Undigited.nil (List.cons.inj left).2
  generalize token.location = location at line column
  generalize token'.location = location' at line column
  cases location
  cases location'
  cases line
  cases column
  rfl

theorem fields_injective {token token' : Token} (same : token.fields = token'.fields) : token = token' := by
  obtain ⟨place, same⟩ := List.cons.inj same
  obtain ⟨name, same⟩ := List.cons.inj same
  have literal := (quoted_legible _).eq trivial (List.cons.inj same).1
  have location := place_injective place
  have kind := Kind.name_injective name
  cases token
  cases token'
  cases kind
  cases literal
  cases location
  rfl

theorem splitOn_listed (token : Token) : token.listed.splitOn '\t' = token.fields := by
  have within : ∀ field ∈ token.fields, '\t' ∉ field := fun field member tab =>
    absurd (token.fields_printable field member '\t' tab) (by decide)
  rw [listed_eq_joined]
  exact List.splitOn_intercalate '\t' within (List.cons_ne_nil _ _)

theorem listed_injective {token token' : Token} (same : token.listed = token'.listed) : token = token' :=
  fields_injective (by rw [← splitOn_listed, ← splitOn_listed, same])

theorem listed_printable (token : Token) : ∀ c ∈ token.listed, isPrintable c = true ∨ c = '\t' := by
  intro c member
  rw [listed_eq_joined] at member
  rcases Text.mem_joined member with tab | ⟨field, shown, inside⟩
  · exact .inr (List.mem_singleton.mp tab)
  · exact .inl (token.fields_printable field shown c inside)

end Token

/-- The newlines of a listing divide it into the lines of its tokens. -/
theorem splitOn_tokenListing (source : Text) :
    (tokenListing source).splitOn '\n' = (scan source).tokens.map Token.listed := by
  refine List.splitOn_intercalate '\n' (fun line member newline => ?_) (by simp [TokenStream.tokens])
  obtain ⟨token, _, rfl⟩ := List.mem_map.mp member
  rcases token.listed_printable '\n' newline with printable | tab
  · exact absurd printable (by decide)
  · exact absurd tab (by decide)

theorem tokenListing_printable (source : Text) :
    ∀ c ∈ tokenListing source, isPrintable c = true ∨ c = '\t' ∨ c = '\n' := by
  intro c member
  rcases Text.mem_joined member with newline | ⟨line, shown, inside⟩
  · exact .inr (.inr (List.mem_singleton.mp newline))
  · obtain ⟨token, _, rfl⟩ := List.mem_map.mp shown
    exact (token.listed_printable c inside).imp_right .inl

/-- The token listing of every source is printable but for its tabs and newlines. Its newlines divide it into one line
for each token, and the tabs of the lines these into the fields of the tokens. It is the listing of another source just
if both have the same tokens. -/
theorem listing_lossless (limit : Nat) (source : Text) :
    ∃ text, render limit source .tokens = .ok text ∧
      (∀ c ∈ text, isPrintable c = true ∨ c = '\t' ∨ c = '\n') ∧
      text.splitOn '\n' = (scan source).tokens.map Token.listed ∧
      (text.splitOn '\n').map (List.splitOn '\t') = (scan source).tokens.map Token.fields ∧
      ∀ other, render limit other .tokens = .ok text ↔ (scan other).tokens = (scan source).tokens := by
  refine ⟨tokenListing source, rfl, tokenListing_printable source, splitOn_tokenListing source, ?_, fun other => ?_⟩
  · rw [splitOn_tokenListing, List.map_map]
    exact List.map_congr_left fun token _ => token.splitOn_listed
  · constructor
    · intro same
      have listing : tokenListing other = tokenListing source := Except.ok.inj same
      refine (List.map_inj_right fun _ _ => Token.listed_injective).mp ?_
      rw [← splitOn_tokenListing, ← splitOn_tokenListing, listing]
    · intro same
      exact congrArg (fun tokens => Except.ok (Text.joined ['\n'] (tokens.map Token.listed))) same

end Mana
