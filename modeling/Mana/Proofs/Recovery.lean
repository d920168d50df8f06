import Mana.Proofs.Grammar.Tracked.Program
import Mana.Proofs.Token.Joined

/-! Recovery. Whatever is wrong in a source that ends with a semicolon stays there: what comes after it is parsed
as if it were alone, and stray tokens in between are reported and passed one by one. -/
namespace Mana

open Grammar

/-- No statement begins with a token of the kind, and the tokens do not end with it. -/
def Kind.isStray (kind : Kind) : Bool :=
  (Rules.standard.opening kind).isNone && kind ∉ [.letKeyword, .returnKeyword, .eof]

example : Kind.all.filter Kind.isStray =
    [.illegal, .assign, .plus, .asterisk, .slash, .lt, .gt, .eq, .notEq, .comma, .semicolon, .rparen, .lbrace,
      .rbrace, .elseKeyword] := rfl

/-- White space between two pieces of a source. -/
structure Gap where
  text : Text
  visible : text ≠ []
  spaces : ∀ c ∈ text, isSpace c = true

/-- A token that no statement begins with, after white space. -/
structure Stray where
  gap : Gap
  kind : Kind
  literal : Text
  lexical : Lexical kind literal
  stray : kind.isStray = true

def Stray.text (stray : Stray) : Text := stray.gap.text ++ stray.literal

/-- A text, stray tokens after it, and another text, with white space in between. -/
def strewn (before : Text) (strays : List Stray) (gap : Gap) (after : Text) : Text :=
  before ++ (strays.flatMap Stray.text ++ (gap.text ++ after))

/-- One complaint for each stray token, where the first one comes after a location. -/
def strayDiagnostics (location : Location) : List Stray → List Diagnostic
  | [] => []
  | stray :: others =>
    ⟨.noOpening stray.kind, location.past stray.gap.text⟩ :: strayDiagnostics (location.past stray.text) others

/-- The diagnostic as it is in a text that begins at a base. -/
def Diagnostic.moved (base : Location) (diagnostic : Diagnostic) : Diagnostic :=
  { diagnostic with location := base.moved diagnostic.location }

/-- A fault at the end of the tokens says so in its message. -/
theorem Fault.MentionsEnd.message {fault : Fault} (mentions : fault.MentionsEnd) :
    "EOF".toList <:+: fault.message := by
  cases fault with
  | expected wanted found =>
    obtain rfl : found = .eof := mentions
    exact ⟨_, " instead".toList, rfl⟩
  | noOpening found =>
    obtain rfl : found = .eof := mentions
    exact ⟨"no prefix parse function for ".toList, " found".toList, rfl⟩
  | badInteger literal => cases mentions
  | tooDeep => cases mentions
  | remark text => cases mentions

theorem Gap.fresh (gap : Gap) (rest : Text) : Fresh (gap.text ++ rest) := by
  obtain ⟨text, visible, spaces⟩ := gap
  cases text with
  | nil => exact absurd rfl visible
  | cons c text => exact .space (spaces c List.mem_cons_self)

theorem fresh_strays (strays : List Stray) (fresh : Fresh rest) : Fresh (strays.flatMap Stray.text ++ rest) := by
  cases strays with
  | nil => exact fresh
  | cons stray others =>
    rw [List.flatMap_cons, Stray.text, List.append_assoc, List.append_assoc]
    exact stray.gap.fresh _

namespace Parsed

variable {limit : Nat}

theorem ofStream_stray {stream : TokenStream} {token : Token} (stray : token.kind.isStray = true)
    (unstruck : (ofStream limit (stream.preceded token)).Unstruck) :
    (ofStream limit (stream.preceded token)).program.statements = (ofStream limit stream).program.statements ∧
      (ofStream limit (stream.preceded token)).diagnostics =
        ⟨.noOpening token.kind, token.location⟩ :: (ofStream limit stream).diagnostics := by
  simp only [Kind.isStray, Bool.and_eq_true, Option.isNone_iff_eq_none, List.mem_cons, List.not_mem_nil, or_false,
    not_or, decide_eq_true_eq] at stray
  obtain ⟨none, notLet, notReturn, going⟩ := stray
  have going : (stream.preceded token).current.kind ≠ .eof := going
  have start := TokenStream.Within.refl (stream.preceded token)
  have plain (nested : Nested) :
      (statement nested).run (stream.preceded token) = (expressionStatement nested).run (stream.preceded token) := by
    rw [statement, Parse.run_current_bind, TokenStream.current_preceded, if_neg notLet, if_neg notReturn]
  cases limit with
  | zero => exact absurd unstruck (not_unstruck going (plain _))
  | succ levels =>
    have refused : (opened .standard (expression .standard levels)).run (stream.preceded token) =
        ⟨.failed, stream.preceded token, [⟨.noOpening token.kind, token.location⟩]⟩ := by
      simp only [opened, Parse.run_current_bind, TokenStream.current_preceded, none]
      rfl
    have ran : (statement (expression .standard (levels + 1))).run (stream.preceded token) =
        ⟨.failed, stream.preceded token, [⟨.noOpening token.kind, token.location⟩]⟩ := by
      rw [plain, expressionStatement, Parse.run_current_bind, whole, expression, Parse.run_bind, Parse.run_bind,
        refused]
      rfl
    have failed := ofStream_failed going ran
    have stays : recovered (stream.preceded token) [] (stream.preceded token) = stream.preceded token :=
      if_pos ⟨rfl, notLet, notReturn⟩
    rwa [stays, TokenStream.advanced_preceded] at failed

/-- Stray tokens are reported and passed one by one. -/
theorem ofStream_strays (strays : List Stray) {rest : Text} (fresh : Fresh rest) (location : Location)
    (unstruck : (ofStream limit (scanFrom location 0 (strays.flatMap Stray.text ++ rest))).Unstruck) :
    (ofStream limit (scanFrom location 0 (strays.flatMap Stray.text ++ rest))).program.statements =
        (ofStream limit (scanFrom (location.past (strays.flatMap Stray.text)) 0 rest)).program.statements ∧
      (ofStream limit (scanFrom location 0 (strays.flatMap Stray.text ++ rest))).diagnostics =
        strayDiagnostics location strays ++
          (ofStream limit (scanFrom (location.past (strays.flatMap Stray.text)) 0 rest)).diagnostics := by
  induction strays generalizing location with
  | nil => exact ⟨rfl, rfl⟩
  | cons stray others ih =>
    have first : scanFrom location 0 ((stray :: others).flatMap Stray.text ++ rest) =
        (scanFrom (location.past stray.text) 0 (others.flatMap Stray.text ++ rest)).preceded
          ⟨stray.kind, stray.literal, location.past stray.gap.text⟩ := by
      rw [List.flatMap_cons, Stray.text, List.append_assoc, List.append_assoc,
        scanFrom_blank stray.gap.spaces, scanFrom_lexical stray.lexical (fresh_strays others fresh _ _),
        Location.past_append]
    rw [first] at unstruck ⊢
    obtain ⟨statements, diagnostics⟩ := ofStream_stray stray.stray unstruck
    obtain ⟨statements', diagnostics'⟩ := ih (location.past stray.text)
      fun diagnostic member => unstruck diagnostic (diagnostics ▸ List.mem_cons_of_mem _ member)
    rw [statements, diagnostics, statements', diagnostics', List.flatMap_cons, Location.past_append]
    exact ⟨rfl, rfl⟩

/-- Diagnostics that report the same faults at locations that are known are known. -/
theorem found_of_reports {pairing : Pairing} {move : Location → Location} {found found' : List Diagnostic}
    (moves : ∀ location location', pairing.located location location' → location' = move location)
    (reports : List.Forall₂ pairing.Reports found found') :
    found' = found.map fun diagnostic => ⟨diagnostic.fault, move diagnostic.location⟩ := by
  induction reports with
  | nil => rfl
  | @cons diagnostic other _ _ first others ih =>
    obtain ⟨fault, location⟩ := other
    obtain ⟨rfl, located⟩ := first
    have same : location = move diagnostic.location := moves _ _ located
    rw [List.map_cons, ih, same]

/-- A text in front that ends with a semicolon, and of which no diagnostic mentions the end, is parsed as if
nothing came after it, and what comes after it as if nothing came before. -/
theorem statements_sealed {before rest : Text} (going : nul ∉ before) (sealed : (scan before).Sealed)
    (unmentioned : ∀ diagnostic ∈ (parseWithin limit before).diagnostics, ¬ diagnostic.fault.MentionsEnd)
    (fresh : Fresh rest) (unstruck : (parseWithin limit (before ++ rest)).Unstruck) :
    ∃ nodes, List.Forall₂ Alike (parseWithin limit before).program.statements nodes ∧
      (parseWithin limit (before ++ rest)).program.statements =
        nodes ++ (ofStream limit (scanFrom (Location.start.past before) 0 rest)).program.statements ∧
      (parseWithin limit (before ++ rest)).diagnostics = (parseWithin limit before).diagnostics ++
        (ofStream limit (scanFrom (Location.start.past before) 0 rest)).diagnostics := by
  let pairing : Pairing := ⟨Eq, Location.start.past before, scanFrom (Location.start.past before) 0 rest⟩
  obtain ⟨ahead, stop⟩ := scanFrom_append going fresh .start
  have abreast : pairing.Abreast (scan before) (scan (before ++ rest)) :=
    { ahead := ⟨_, List.forall₂_same.mpr fun _ _ => ⟨rfl, rfl, rfl⟩, ahead⟩
      stop := (scanFrom_stop .start _).trans (congrArg _ (Text.beforeNul_of_going going))
      beyond := stop
      ends := .inr fun token last opened => by
        rw [sealed.of_suffix last] at opened
        cases opened }
  obtain ⟨nodes, found, all, reports, statements, diagnostics⟩ :=
    ofStream_abreast abreast (scan_genuine before) (.inr ⟨sealed, unmentioned⟩) unstruck
  have same : found =
      (parseWithin limit before).diagnostics.map fun diagnostic => ⟨diagnostic.fault, diagnostic.location⟩ :=
    found_of_reports (fun _ _ => Eq.symm) reports
  rw [same, List.map_id'] at diagnostics
  exact ⟨nodes, all, statements, diagnostics⟩

/-- How a text stands beside itself where it begins elsewhere: its locations are moved, and nothing comes after it. -/
def shift (base : Location) (text : Text) : Pairing where
  located location location' := location' = base.moved location
  stop := (scan text).stop
  beyond := .ofList [] (base.moved (scan text).stop)

theorem shift_closed (base : Location) (text : Text) : (shift base text).Closed := ⟨rfl, rfl⟩

theorem shift_abreast (base : Location) (text : Text) : (shift base text).Abreast (scan text) (scanFrom base 0 text) := by
  obtain ⟨ahead, stop⟩ := scanFrom_moved base .start (by decide) 0 text
  rw [base.moved_start] at ahead stop
  have paired : List.Forall₂ (shift base text).Pairs (scan text).ahead ((scan text).ahead.map (Token.moved base)) :=
    List.forall₂_map_right_iff.mpr (List.forall₂_same.mpr fun _ _ => ⟨rfl, rfl, rfl⟩)
  exact
    { ahead := ⟨_, paired, ahead.trans (List.append_nil _).symm⟩
      stop := rfl
      beyond := stop
      ends := .inl (shift_closed base text) }

/-- A text that begins elsewhere is parsed as at the start, with its diagnostics moved. -/
theorem statements_moved (base : Location) (text : Text) (unstruck : (ofStream limit (scanFrom base 0 text)).Unstruck) :
    List.Forall₂ Alike (parseWithin limit text).program.statements
        (ofStream limit (scanFrom base 0 text)).program.statements ∧
      (ofStream limit (scanFrom base 0 text)).diagnostics =
        (parseWithin limit text).diagnostics.map (Diagnostic.moved base) := by
  obtain ⟨nodes, found, all, reports, statements, diagnostics⟩ :=
    ofStream_abreast (shift_abreast base text) (scan_genuine text) (.inl (shift_closed base text)) unstruck
  have ended : (shift base text).beyond.current.kind = .eof := rfl
  obtain ⟨none, nothing⟩ := ofStream_ended limit ended
  rw [none, List.append_nil] at statements
  rw [nothing, List.append_nil] at diagnostics
  rw [statements, diagnostics]
  exact ⟨all, found_of_reports (fun _ _ located => located) reports⟩

end Parsed

/-- Parsing a text that ends with a semicolon, stray tokens and another text gives the statements of both texts,
and the diagnostics of the first text, of the stray tokens, and of the other text where it begins, unless it nests
too deeply or a diagnostic of the first text is about the end. -/
theorem strewn_isolated (limit : Nat) (before : Text) (strays : List Stray) (gap : Gap) (after : Text)
    (going : nul ∉ before) (sealed : (scan before).Sealed)
    (unmentioned : ∀ diagnostic ∈ (parseWithin limit before).diagnostics, ¬ "EOF".toList <:+: diagnostic.message)
    (unstruck : (parseWithin limit (strewn before strays gap after)).Unstruck) :
    Node.SayAll (parseWithin limit (strewn before strays gap after)).program.statements
        ((parseWithin limit before).program.statements ++ (parseWithin limit after).program.statements) ∧
      (parseWithin limit (strewn before strays gap after)).diagnostics =
        (parseWithin limit before).diagnostics ++ strayDiagnostics (Location.start.past before) strays ++
          (parseWithin limit after).diagnostics.map
            (Diagnostic.moved (Location.start.past (before ++ strays.flatMap Stray.text ++ gap.text))) := by
  obtain ⟨nodes, all, statements, diagnostics⟩ := Parsed.statements_sealed going sealed
    (fun diagnostic member mentions => unmentioned diagnostic member mentions.message)
    (fresh_strays strays (gap.fresh after)) unstruck
  have unstruck' (diagnostic : Diagnostic) (member : diagnostic ∈ (Parsed.ofStream limit _).diagnostics) :
      diagnostic.fault ≠ .tooDeep := unstruck diagnostic (diagnostics ▸ List.mem_append_right _ member)
  obtain ⟨passed, reported⟩ := Parsed.ofStream_strays strays (gap.fresh after) (Location.start.past before) unstruck'
  have base : scanFrom ((Location.start.past before).past (strays.flatMap Stray.text)) 0 (gap.text ++ after) =
      scanFrom (Location.start.past (before ++ strays.flatMap Stray.text ++ gap.text)) 0 after := by
    rw [scanFrom_blank gap.spaces, Location.past_append, Location.past_append]
  rw [base] at passed reported
  obtain ⟨others, moved⟩ := Parsed.statements_moved _ after
    fun diagnostic member => unstruck' diagnostic (reported ▸ List.mem_append_right _ member)
  rw [strewn, statements, diagnostics, passed, reported, moved]
  exact ⟨sayAll_of_alike (List.rel_append all others), (List.append_assoc ..).symm⟩

/-- Two broken statements, two stray tokens and a text that ends too early keep their complaints to themselves. -/
theorem strewn_isolated_broken :
    Node.SayAll (parseWithin 9 "let x 5; fn() \x7b y ) \x7d ;\n ) != 1; (".toList).program.statements
        ((parseWithin 9 "let x 5; fn() \x7b y ) \x7d ;".toList).program.statements ++
          (parseWithin 9 "1; (".toList).program.statements) ∧
      (parseWithin 9 "let x 5; fn() \x7b y ) \x7d ;\n ) != 1; (".toList).diagnostics =
        [⟨.expected .assign .int, ⟨1, 7⟩⟩, ⟨.noOpening .rparen, ⟨1, 19⟩⟩, ⟨.noOpening .rparen, ⟨2, 2⟩⟩,
          ⟨.noOpening .notEq, ⟨2, 4⟩⟩, ⟨.noOpening .eof, ⟨2, 11⟩⟩] := by
  have isolated := strewn_isolated 9 "let x 5; fn() \x7b y ) \x7d ;".toList
    [⟨⟨"\n ".toList, List.cons_ne_nil _ _, List.all_eq_true.mp rfl⟩, .rparen, ")".toList, .symbol rfl, rfl⟩,
      ⟨⟨" ".toList, List.cons_ne_nil _ _, List.all_eq_true.mp rfl⟩, .notEq, "!=".toList, .notEq, rfl⟩]
    ⟨" ".toList, List.cons_ne_nil _ _, List.all_eq_true.mp rfl⟩ "1; (".toList (by decide +kernel) (by decide +kernel)
    (by decide +kernel) (by decide)
  exact ⟨isolated.1, isolated.2.trans rfl⟩

end Mana
