import Mana.Proofs.Grammar.Tracked.Closed
import Mana.Proofs.Nesting.Reached
import Mana.Proofs.PrintedWords
import Mana.Proofs.Recovery
import Mana.Proofs.Token.Cut
import Mana.Proofs.Token.Words

/-! The limit on nesting as a cut-off. A statement that nests too deeply leaves nothing behind but what it has found
and one complaint, and what comes after its next semicolon is parsed as if it were alone. -/
namespace Mana

/-- A source divided behind the next semicolon that is ahead, or where its tokens end if there is none. -/
inductive Text.Resumes (source : Text) (stand : TokenStream) : Text → Text → Prop where
  | semicolon (next : stand.ahead.find? (fun token => token.kind = .semicolon) = some token)
      (located : token.location = Location.start.past before) (divided : source = before ++ ';' :: after) :
      Resumes source stand (before ++ [';']) after
  | ended (none : stand.ahead.find? (fun token => token.kind = .semicolon) = none)
      (divided : source = source.beforeNul ++ after) : Resumes source stand source.beforeNul after

theorem Text.exists_beforeNul (text : Text) : ∃ after, text = text.beforeNul ++ after ∧ after.beforeNul = [] := by
  refine ⟨text.dropWhile (· ≠ nul), List.takeWhile_append_dropWhile.symm, ?_⟩
  rw [Text.beforeNul, List.takeWhile_eq_nil_iff]
  intro some
  exact List.dropWhile_get_zero_not _ _ some

namespace TokenStream

variable {source : Text} {stand : TokenStream}

/-- What is left behind the next semicolon of a source is scanned from there. -/
theorem behindSemicolon_resumes (within : stand.Within (scan source)) :
    ∃ passed remaining, source.Resumes stand passed remaining ∧
      stand.behindSemicolon = scanFrom (Location.start.past passed) 0 remaining := by
  obtain ⟨before, split⟩ := within.ahead
  have next := List.find?_eq_head?_dropWhile_not (fun token : Token => decide (token.kind = .semicolon)) stand.ahead
  have divided := List.takeWhile_append_dropWhile (p := fun token => !decide (token.kind = .semicolon)) (l := stand.ahead)
  rcases left : stand.ahead.dropWhile (fun token => !decide (token.kind = .semicolon)) with _ | ⟨token, later⟩
  · rw [left] at next
    obtain ⟨after, whole, unread⟩ := source.exists_beforeNul
    refine ⟨source.beforeNul, after, .ended next whole, ?_⟩
    rw [behindSemicolon, left, scanFrom_ended unread, ← scanFrom_stop, within.stop]
    rfl
  · rw [left] at next divided
    have kind : token.kind = .semicolon := by simpa using List.find?_some next
    have tokens : (scan source).tokens =
        (before ++ stand.ahead.takeWhile fun token => !decide (token.kind = .semicolon)) ++
          token :: (later ++ [(scan source).final]) := by
      rw [TokenStream.tokens, ← split]
      conv_lhs => rw [← divided]
      simp
    obtain ⟨front, _, whole, _, begins⟩ := exists_scanned tokens
    obtain ⟨back, rfl, rest⟩ := begins.divided
    have rest := rest (by rw [kind]; decide)
    have lexical : Lexical token.kind token.literal :=
      scan_genuine source token (within.ahead.subset (List.mem_of_find?_eq_some next))
    rw [kind] at lexical
    rw [lexical.literal (by decide)] at whole rest
    rw [← Location.past_append] at rest
    refine ⟨front ++ [';'], back, .semicolon next begins.located whole, ?_⟩
    rw [behindSemicolon, left]
    have same : (scanFrom (Location.start.past (front ++ [';'])) 0 back).tokens = [] ++ (ofList later stand.stop).tokens := by
      rw [within.stop]
      exact rest
    exact (TokenStream.ext (ahead_eq_of_tokens same) (stop_eq_of_tokens same)).symm

end TokenStream

namespace Parsed

open Grammar

variable {limit larger : Nat} {source : Text}

/-- What is parsed from a base on is parsed as if it were alone, with its diagnostics moved, however much of it nests
too deeply. -/
theorem ofStream_moved (limit : Nat) (base : Location) (text : Text) :
    Node.SayAll (ofStream limit (scanFrom base 0 text)).program.statements (parseWithin limit text).program.statements ∧
      (ofStream limit (scanFrom base 0 text)).diagnostics =
        (parseWithin limit text).diagnostics.map (Diagnostic.moved base) := by
  obtain ⟨all, reports⟩ := ofStream_closed limit (shift_closed base text) (shift_abreast base text)
  exact ⟨sayAll_of_alike all, found_of_reports (fun _ _ located => located) reports⟩

/-- A parse of a source ends with its tokens. -/
theorem rest_eq (limit : Nat) (source : Text) : (parseWithin limit source).rest = .ofList [] (scan source).stop := by
  have within := rest_within limit (scan source)
  have genuine : TokenStream.Genuine _ := (scan_genuine source).within within
  exact TokenStream.ext (genuine.ahead_of_ended (program_ended limit (scan source))) within.stop

/-- What a statement leaves behind that is struck in the parse of a source. The parse has come to its first token with
some statements and diagnostics, and stands somewhere behind with the diagnostics of its own. -/
structure GivenUp (limit larger : Nat) (source : Text) (nodes : List Node) (found : List Diagnostic)
    (place stand : TokenStream) (own : List Diagnostic) : Prop where
  /-- Up to the first statement that is struck, a larger limit makes no difference. -/
  before : UnstruckBefore limit (scan source) place → Reaches larger (scan source) nodes found place
  /-- The one complaint about nesting comes after what was found in the statement. -/
  shallow : ∀ diagnostic ∈ own, diagnostic.fault ≠ .tooDeep
  /-- No node is appended, and what comes behind the next semicolon is parsed as if it were alone. -/
  resumed : ∃ passed remaining, source.Resumes stand passed remaining ∧
    Reaches limit (scan source) nodes (found ++ (own ++ [⟨.tooDeep, place.current.location⟩]))
      (scanFrom (Location.start.past passed) 0 remaining) ∧
    (∃ others, Node.SayAll others (parseWithin limit remaining).program.statements ∧
      (parseWithin limit source).program.statements = nodes ++ others) ∧
    (parseWithin limit source).diagnostics = found ++ (own ++ [⟨.tooDeep, place.current.location⟩]) ++
      (parseWithin limit remaining).diagnostics.map (Diagnostic.moved (Location.start.past passed))

theorem Strikes.givenUp (strikes : Strikes limit place stand own) (positive : 0 < limit) (fewer : limit ≤ larger)
    (reaches : Reaches limit (scan source) nodes found place) :
    GivenUp limit larger source nodes found place stand own where
  before := reaches.within_larger fewer
  shallow := strikes.shallow
  resumed := by
    obtain ⟨passed, remaining, resumes, behind⟩ :=
      TokenStream.behindSemicolon_resumes (strikes.stand_within.trans reaches.within)
    have round := strikes.round positive ((scan_genuine source).within reaches.within)
    rw [behind] at round
    have later := reaches.nothing round
    obtain ⟨statements, diagnostics⟩ := later.parsed
    obtain ⟨all, moved⟩ := ofStream_moved limit (Location.start.past passed) remaining
    exact ⟨passed, remaining, resumes, later, ⟨_, all, statements⟩, moved ▸ diagnostics⟩

end Parsed

/-- The limit on nesting is a cut-off, if it allows a level at all. The parse of a source always ends with its tokens,
and is the same within a larger limit if no statement is struck. A statement that is struck is given up. -/
theorem nesting_cut_off (limit larger : Nat) (source : Text) (positive : 0 < limit) (fewer : limit ≤ larger) :
    (parseWithin limit source).rest = .ofList [] (scan source).stop ∧
      ((∀ nodes found place stand own, Parsed.Reaches limit (scan source) nodes found place →
          ¬ Parsed.Strikes limit place stand own) → parseWithin larger source = parseWithin limit source) ∧
      ∀ nodes found place stand own, Parsed.Reaches limit (scan source) nodes found place →
        Parsed.Strikes limit place stand own → Parsed.GivenUp limit larger source nodes found place stand own := by
  refine ⟨Parsed.rest_eq limit source, fun unstruck => ?_, fun nodes found place stand own reaches strikes => ?_⟩
  · exact Parsed.ofStream_of_le (Parsed.unstruck_of_reaches unstruck) fewer
  · exact strikes.givenUp positive fewer reaches

/-- A block is struck behind a broken statement of its own, which is still reported, and `c` is parsed again. -/
theorem nesting_cut_off_block :
    Parsed.GivenUp 3 9 "fn()\x7b1+;((b;c".toList [] [] (scan "fn()\x7b1+;((b;c".toList)
        (scanFrom ⟨1, 11⟩ 0 "b;c".toList) [⟨.noOpening .semicolon, ⟨1, 8⟩⟩] ∧
      (parseWithin 3 "fn()\x7b1+;((b;c".toList).diagnostics =
        [⟨.noOpening .semicolon, ⟨1, 8⟩⟩, ⟨.tooDeep, ⟨1, 1⟩⟩] ∧
      (parseWithin 3 "fn()\x7b1+;((b;c".toList).program.source = "c;".toList := by
  have strikes : Parsed.Strikes 3 (scan "fn()\x7b1+;((b;c".toList) (scanFrom ⟨1, 11⟩ 0 "b;c".toList)
      [⟨.noOpening .semicolon, ⟨1, 8⟩⟩] := by decide
  obtain ⟨_, _, givenUp⟩ := nesting_cut_off 3 9 "fn()\x7b1+;((b;c".toList (by decide) (by decide)
  exact ⟨givenUp _ _ _ _ _ .start strikes, rfl, rfl⟩

end Mana
