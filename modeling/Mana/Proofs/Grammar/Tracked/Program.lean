import Mana.Proofs.Grammar.Parsed
import Mana.Proofs.Grammar.Tracked.Expression

/-! Programs on streams side by side. A stream whose last token is a semicolon, and of which no diagnostic
mentions the end, is parsed as if nothing were beyond it. -/
namespace Mana

/-- The last token of the stream, if there is one, is a semicolon. -/
def TokenStream.Sealed (stream : TokenStream) : Prop :=
  ∀ token ∈ stream.ahead.getLast?, token.kind = .semicolon

instance (stream : TokenStream) : Decidable stream.Sealed :=
  inferInstanceAs (Decidable (∀ token ∈ stream.ahead.getLast?, token.kind = .semicolon))

namespace TokenStream.Sealed

variable {rest stream : TokenStream}

theorem of_suffix (seals : stream.Sealed) (last : [token] <:+ stream.ahead) : token.kind = .semicolon :=
  seals token (List.singleton_suffix_iff_getLast?_eq_some.mp last)

theorem within (seals : stream.Sealed) (within : rest.Within stream) : rest.Sealed :=
  fun _ last => seals.of_suffix ((List.singleton_suffix_iff_getLast?_eq_some.mpr last).trans within.ahead)

theorem skippedTo (seals : stream.Sealed) (going : 0 < stream.count) {stops : Kind → Bool}
    (stop : stops .semicolon = true) : 0 < (stream.skippedTo stops).count := by
  rw [stream.count_eq, List.length_pos_iff] at going
  rw [TokenStream.skippedTo_eq, TokenStream.count_eq, List.length_pos_iff]
  intro empty
  have passed := List.dropWhile_eq_nil_iff.mp empty (stream.ahead.getLast going) (List.getLast_mem going)
  rw [seals.of_suffix ⟨_, List.dropLast_append_getLast going⟩, stop] at passed
  cases passed

theorem current (seals : stream.Sealed) (last : stream.count = 1) : stream.current.kind = .semicolon :=
  seals _ (by rw [TokenStream.ahead_of_last last]; rfl)

end TokenStream.Sealed

namespace Parsed

open Grammar

variable {pairing : Pairing} {stream other rest rest' : TokenStream} {limit : Nat}

/-- What is parsed of the stream does not depend on what is beyond: nothing is, or the stream ends with a semicolon
and no diagnostic mentions the end. -/
def Settled (pairing : Pairing) (limit : Nat) (stream : TokenStream) : Prop :=
  pairing.Closed ∨ stream.Sealed ∧ ∀ diagnostic ∈ (ofStream limit stream).diagnostics, ¬ diagnostic.fault.MentionsEnd

theorem Settled.later (settled : Settled pairing limit stream) (within : rest.Within stream)
    (diagnostics : (ofStream limit stream).diagnostics = found ++ (ofStream limit rest).diagnostics) :
    Settled pairing limit rest :=
  settled.imp_right fun ⟨sealed, unmentioned⟩ => ⟨sealed.within within, fun diagnostic member =>
    unmentioned diagnostic (diagnostics ▸ List.mem_append_right found member)⟩

/-- Statements and diagnostics of the stream come first on the other one, and then those of what is beyond. -/
def Continued (pairing : Pairing) (limit : Nat) (stream other : TokenStream) : Prop :=
  ∃ nodes found, List.Forall₂ Alike (ofStream limit stream).program.statements nodes ∧
    List.Forall₂ pairing.Reports (ofStream limit stream).diagnostics found ∧
    (ofStream limit other).program.statements = nodes ++ (ofStream limit pairing.beyond).program.statements ∧
    (ofStream limit other).diagnostics = found ++ (ofStream limit pairing.beyond).diagnostics

theorem Continued.prepend {own own' : List Node} {found found' : List Diagnostic}
    (later : Continued pairing limit rest rest') (alike : List.Forall₂ Alike own own')
    (reports : List.Forall₂ pairing.Reports found found')
    (first : (ofStream limit stream).program.statements = own ++ (ofStream limit rest).program.statements ∧
      (ofStream limit stream).diagnostics = found ++ (ofStream limit rest).diagnostics)
    (second : (ofStream limit other).program.statements = own' ++ (ofStream limit rest').program.statements ∧
      (ofStream limit other).diagnostics = found' ++ (ofStream limit rest').diagnostics) :
    Continued pairing limit stream other := by
  obtain ⟨nodes, more, all, others, statements, diagnostics⟩ := later
  refine ⟨own' ++ nodes, found' ++ more, ?_⟩
  rw [first.1, first.2, second.1, second.2, statements, diagnostics]
  exact ⟨List.rel_append alike all, List.rel_append reports others, (List.append_assoc ..).symm,
    (List.append_assoc ..).symm⟩

theorem Settled.not_stranded (settled : Settled pairing limit stream) (going : stream.current.kind ≠ .eof)
    (apart : ¬ pairing.Closed) (within : rest.Within stream)
    (ran : (statement (expression .standard limit)).run stream = ⟨outcome, rest, found⟩) :
    ¬ Step.Stranded pairing.Seals ⟨outcome, rest, found⟩ := by
  obtain ⟨sealed, unmentioned⟩ := settled.resolve_left apart
  intro stranded
  cases stranded with
  | mentions mentions =>
    obtain ⟨diagnostic, member, mentioned⟩ := mentions
    obtain ⟨later, split⟩ := ofStream_found going ran
    exact unmentioned diagnostic (split ▸ List.mem_append_left later member) mentioned
  | arrives node _ _ same last unmet =>
    cases same
    exact unmet (.inl ((sealed.within within).current last))

/-- The first statement of the stream beside is parsed in the same way, as far as the stream covers it. -/
theorem statement_beside (covers : pairing.Covers 0 stream) (abreast : pairing.Abreast stream other)
    (going : stream.current.kind ≠ .eof)
    (ran : (statement (expression .standard limit)).run stream = ⟨outcome, rest, found⟩) :
    ∃ outcome' rest' found', other.current.kind ≠ .eof ∧
      (statement (expression .standard limit)).run other = ⟨outcome', rest', found'⟩ ∧
        Step.Tracks pairing Alike pairing.Seals ⟨outcome, rest, found⟩ ⟨outcome', rest', found'⟩ := by
  have tracks := statement_tracks limit abreast covers
  rcases ran' : (statement (expression .standard limit)).run other with ⟨outcome', rest', found'⟩
  rw [ran, ran'] at tracks
  refine ⟨outcome', rest', found', ?_, rfl, tracks⟩
  rwa [(abreast.current covers).kind]

theorem Settled.covers_recovered (settled : Settled pairing limit stream) (within : rest.Within stream)
    (reaches : pairing.Covers 0 rest) : pairing.Covers 0 (recovered stream [] rest) := by
  refine settled.elim .inl fun ⟨sealed, _⟩ => reaches.imp_right fun some => ?_
  unfold recovered
  split
  · exact some
  · exact (sealed.within within).skippedTo some rfl

/-- What is settled on the stream is continued on the one beside it. -/
theorem ofStream_abreast (abreast : pairing.Abreast stream other) (genuine : stream.Genuine)
    (settled : Settled pairing limit stream) (unstruck : (ofStream limit other).Unstruck) :
    Continued pairing limit stream other := by
  have covers {stream : TokenStream} (going : stream.current.kind ≠ .eof) : pairing.Covers 0 stream :=
    .of_lt (TokenStream.count_pos going)
  induction stream using induct limit generalizing other with
  | ended stream ended =>
    obtain ⟨none, nothing⟩ := ofStream_ended limit ended
    rw [Continued, abreast.beyond_eq (genuine.count_of_ended ended), none, nothing]
    exact ⟨[], [], .nil, .nil, rfl, rfl⟩
  | done stream rest node found going within ran ih =>
    obtain ⟨_, _, _, going', ran', tracks⟩ := statement_beside (covers going) abreast going ran
    cases tracks with
    | stranded apart stranded => exact absurd stranded (settled.not_stranded going apart within ran)
    | done alike later reaches reports =>
      have first := ofStream_done going ran
      have second := ofStream_done going' ran'
      have left : rest.advanced.Within stream := (TokenStream.Within.advanced rest).trans within
      have others := ih (later.advanced reaches) (genuine.within left) (settled.later left first.2)
        (unstruck.of_append second.2)
      exact others.prepend (.cons alike .nil) reports first second
  | failed stream rest found going within ran ih =>
    obtain ⟨_, _, _, going', ran', tracks⟩ := statement_beside (covers going) abreast going ran
    cases tracks with
    | stranded apart stranded => exact absurd stranded (settled.not_stranded going apart within ran)
    | failed later reaches reports =>
      have first := ofStream_failed going ran
      have second := ofStream_failed going' ran'
      have left := left_within stream [] within
      have goes := settled.covers_recovered within reaches
      have next := (abreast_recovered abreast (covers going) later [] goes).advanced goes
      have others := ih next (genuine.within left) (settled.later left first.2) (unstruck.of_append second.2)
      exact others.prepend .nil reports first second
  | struck stream rest found going within ran ih =>
    obtain ⟨_, _, _, going', ran', tracks⟩ := statement_beside (covers going) abreast going ran
    cases tracks with
    | stranded apart stranded => exact absurd stranded (settled.not_stranded going apart within ran)
    | struck => exact absurd unstruck (not_unstruck going' ran')

end Parsed

end Mana
