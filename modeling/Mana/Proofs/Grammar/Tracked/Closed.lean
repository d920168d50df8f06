import Mana.Proofs.Grammar.Tracked.Program

/-! Programs on streams that end alike. Where nothing is beyond either stream, both are parsed alike to the end,
whatever is wrong with their statements and however many of them nest too deeply. -/
namespace Mana

namespace Pairing

variable {pairing : Pairing} {stream other : TokenStream}

theorem Closed.abreast (closed : pairing.Closed) (paired : List.Forall₂ pairing.Pairs stream.ahead other.ahead)
    (stop : stream.stop = pairing.stop) (beyond : other.stop = pairing.beyond.stop) :
    pairing.Abreast stream other where
  ahead := ⟨other.ahead, paired, by rw [closed.1, List.append_nil]⟩
  stop := stop
  beyond := beyond
  ends := .inl closed

theorem Abreast.ended (abreast : pairing.Abreast stream other) (closed : pairing.Closed)
    (ended : stream.current.kind = .eof) : other.current.kind = .eof :=
  (abreast.current (.inl closed)).kind.trans ended

end Pairing

namespace Parsed

open Grammar

variable {pairing : Pairing} {stream other rest : TokenStream} {limit : Nat}

/-- On streams that end alike, the statements are alike one by one, and the diagnostics report the same. A statement
that is struck on one stream is struck on the other. -/
theorem ofStream_closed (limit : Nat) (closed : pairing.Closed) (abreast : pairing.Abreast stream other) :
    List.Forall₂ Alike (ofStream limit stream).program.statements (ofStream limit other).program.statements ∧
      List.Forall₂ pairing.Reports (ofStream limit stream).diagnostics (ofStream limit other).diagnostics := by
  have covers (stream : TokenStream) : pairing.Covers 0 stream := .inl closed
  induction stream using induct limit generalizing other with
  | ended stream ended =>
    obtain ⟨none, nothing⟩ := ofStream_ended limit ended
    obtain ⟨none', nothing'⟩ := ofStream_ended limit (abreast.ended closed ended)
    rw [none, nothing, none', nothing']
    exact ⟨.nil, .nil⟩
  | done stream rest node found going within ran ih =>
    obtain ⟨_, _, _, going', ran', tracks⟩ := statement_beside (covers stream) abreast going ran
    cases tracks with
    | stranded apart => exact absurd closed apart
    | done alike later _ reports =>
      obtain ⟨all, others⟩ := ih (later.advanced (covers rest))
      rw [(ofStream_done going ran).1, (ofStream_done going ran).2,
        (ofStream_done going' ran').1, (ofStream_done going' ran').2]
      exact ⟨.cons alike all, List.rel_append reports others⟩
  | failed stream rest found going within ran ih =>
    obtain ⟨_, _, _, going', ran', tracks⟩ := statement_beside (covers stream) abreast going ran
    cases tracks with
    | stranded apart => exact absurd closed apart
    | failed later _ reports =>
      have next := (abreast_recovered abreast (covers stream) later [] (covers _)).advanced (covers _)
      obtain ⟨all, others⟩ := ih next
      rw [(ofStream_failed going ran).1, (ofStream_failed going ran).2,
        (ofStream_failed going' ran').1, (ofStream_failed going' ran').2]
      exact ⟨all, List.rel_append reports others⟩
  | struck stream rest found going within ran ih =>
    obtain ⟨_, _, _, going', ran', tracks⟩ := statement_beside (covers stream) abreast going ran
    cases tracks with
    | stranded apart => exact absurd closed apart
    | struck later reports =>
      have next := (abreast_recovered abreast (covers stream) later [] (covers _)).advanced (covers _)
      obtain ⟨all, others⟩ := ih next
      rw [(ofStream_struck going ran).1, (ofStream_struck going ran).2,
        (ofStream_struck going' ran').1, (ofStream_struck going' ran').2]
      have struck : pairing.Reports ⟨.tooDeep, stream.current.location⟩ ⟨.tooDeep, other.current.location⟩ :=
        ⟨rfl, (abreast.current (covers stream)).located⟩
      exact ⟨all, List.rel_append (List.rel_append reports (.cons struck .nil)) others⟩

/-- Programs of streams that end alike say the same. -/
theorem program_closed (limit : Nat) (closed : pairing.Closed) (abreast : pairing.Abreast stream other) :
    (ofStream limit other).program.Says (ofStream limit stream).program := by
  rw [program_eq limit stream, program_eq limit other]
  exact .program (sayAll_of_alike (ofStream_closed limit closed abreast).1)

end Parsed

end Mana
