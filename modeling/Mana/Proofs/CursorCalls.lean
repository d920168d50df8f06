import Mana.Proofs.Token.Calls
import Mana.Proofs.Token.Indexed
import Mana.Proofs.Token.Joined

/-! Tokens from any start. A cursor gives the tokens of the text from its position on, and then the end for ever. From
below zero it first passes the end of the source, where a NUL stops it, and only too far below zero it fails. -/
namespace Mana

theorem scanFrom_firsts (base : Location) (text : Text) (number : Nat) :
    (scanFrom base 0 text).firsts number = ((scan text).firsts number).map (Token.moved base) := by
  have moved := scanFrom_moved base .start (by decide) 0 text
  rw [base.moved_start] at moved
  have token (index : Nat) : (scanFrom base 0 text).tokenAt index = ((scan text).tokenAt index).moved base := by
    rw [TokenStream.tokenAt, TokenStream.tokenAt, moved.1, List.getElem?_map, TokenStream.final, moved.2]
    exact (Option.getD_map (Token.moved base) (scan text).final _)
  rw [TokenStream.firsts, TokenStream.firsts, List.map_map]
  exact List.map_congr_left fun index _ => token index

namespace Cursor

/-- The answers to as many calls for a token as given, each with the cursor that the call leaves behind. -/
def calls (cursor : Cursor) : Nat → List (Except Fault Token × Cursor)
  | 0 => []
  | count + 1 => Call.token.on cursor :: (Call.token.on cursor).2.calls count

variable {cursor after : Cursor} {token : Token}

theorem token_outside (outside : ¬ cursor.Inside) : Call.token.on cursor = (.error .outOfRange, cursor) := by
  have asked : Call.ended.on cursor = (.error .outOfRange, cursor) := congrArg (·, cursor) (ended_of_lt outside)
  have some : cursor.distance = cursor.distance - 1 + 1 := by
    simp only [Inside, size] at outside
    simp only [distance, size]
    omega
  have taken : (Call.takeWhile fun seen => seen.all isSpace).on cursor = (.error .outOfRange, cursor) := by
    rw [Call.takeWhile, Call.on_get_bind, some]
    exact Call.on_bind_error asked
  exact Call.on_bind_error (Call.on_bind_error taken)

/-- Where the end has been returned, it is returned again, and the cursor stays. -/
theorem token_again (answered : Call.token.on cursor = (.ok token, after)) (ended : token.kind = .eof) :
    Call.token.on after = (.ok token, after) := by
  by_cases inside : cursor.Inside
  · rcases Call.token_cases inside with ⟨text, rest, divided, _, none, called⟩ | ⟨_, _, _, _, _, _, _, lexical, _, called⟩
    · obtain ⟨same, rfl⟩ := Prod.mk.inj (answered.symm.trans called)
      cases same
      have again := Call.token_ended (inside.moved text) (ahead_moved inside divided) .nil none
      rwa [moved_nil] at again
    · obtain ⟨same, _⟩ := Prod.mk.inj (answered.symm.trans called)
      cases same
      exact absurd ended lexical.kind_ne_eof
  · cases answered.symm.trans (token_outside inside)

/-- From zero on a call gives the next token of the text ahead, and leaves what comes after it. -/
theorem token_scanned (start : 0 ≤ cursor.position) :
    ∃ after, Call.token.on cursor = (.ok (scanFrom cursor.location 0 cursor.ahead).current, after) ∧
      0 ≤ after.position ∧ scanFrom after.location 0 after.ahead = (scanFrom cursor.location 0 cursor.ahead).advanced := by
  have inside : cursor.Inside := inside_of_le start
  have later (cursor : Cursor) (start : 0 ≤ cursor.position) (text : Text) : 0 ≤ (cursor.moved text).position :=
    Int.add_nonneg start (Int.natCast_nonneg _)
  rcases Call.token_cases inside with ⟨text, rest, divided, passed, none, called⟩ |
    ⟨text, kind, literal, rest, divided, passed, _, lexical, apart, called⟩
  · have scanned : scanFrom cursor.location 0 cursor.ahead = .ofList [] (cursor.location.past text) := by
      rw [divided, scanFrom_blank (passed.spaces start), scanFrom_ended none]
    refine ⟨_, called.trans (by rw [scanned]; rfl), later cursor start text, ?_⟩
    rw [scanned, ahead_moved inside divided, scanFrom_ended none]
    rfl
  · have scanned : scanFrom cursor.location 0 cursor.ahead =
        (scanFrom ((cursor.location.past text).past literal) 0 rest).preceded
          ⟨kind, literal, cursor.location.past text⟩ := by
      rw [divided, scanFrom_blank (passed.spaces start), scanFrom_lexical lexical apart]
    have behind : ((cursor.moved text).moved literal).ahead = rest :=
      ahead_moved (inside.moved text) (ahead_moved inside divided)
    refine ⟨_, called.trans (by rw [scanned]; rfl), later _ (later cursor start text) _, ?_⟩
    rw [scanned, behind, TokenStream.advanced_preceded]
    rfl

/-- Calls from zero on give the first tokens of the text ahead. -/
theorem calls_scanned (start : 0 ≤ cursor.position) (count : Nat) :
    (cursor.calls count).map Prod.fst = ((scanFrom cursor.location 0 cursor.ahead).firsts count).map .ok := by
  induction count generalizing cursor with
  | zero => rfl
  | succ count ih =>
    obtain ⟨after, called, start, left⟩ := token_scanned start
    rw [calls, called, List.map_cons, ih start, left, TokenStream.firsts_succ, List.map_cons]

/-- Where a call leaves the cursor as it was, all further calls come to the same. -/
theorem calls_stay (called : Call.token.on cursor = (answer, cursor)) (count : Nat) :
    ∀ call ∈ cursor.calls count, call = (answer, cursor) := by
  induction count with
  | zero => simp [calls]
  | succ count ih =>
    rw [calls, called]
    exact List.forall_mem_cons.mpr ⟨rfl, ih⟩

/-- A cursor that is not too far below zero answers every call. -/
theorem calls_answered (inside : cursor.Inside) (count : Nat) :
    ∀ call ∈ cursor.calls count, ∃ token, call.1 = .ok token := by
  induction count generalizing cursor with
  | zero => simp [calls]
  | succ count ih =>
    have answered : (∃ token, (Call.token.on cursor).1 = .ok token) ∧ (Call.token.on cursor).2.Inside := by
      rcases Call.token_cases inside with ⟨text, _, _, _, _, called⟩ | ⟨text, _, _, _, _, _, _, _, _, called⟩
      · rw [called]
        exact ⟨⟨_, rfl⟩, inside.moved text⟩
      · rw [called]
        exact ⟨⟨_, rfl⟩, (inside.moved text).moved _⟩
    exact List.forall_mem_cons.mpr ⟨answered.1, ih answered.2⟩

theorem calls_ended (split : cursor.calls count = before ++ call :: later) (answered : call.1 = .ok token)
    (ended : token.kind = .eof) : ∀ other ∈ later, other = call := by
  induction before generalizing cursor count with
  | nil =>
    obtain ⟨answer, after⟩ := call
    subst answered
    cases count with
    | zero => cases split
    | succ count =>
      obtain ⟨called, rfl⟩ := List.cons.inj split
      rw [called]
      exact calls_stay (token_again called ended) count
  | cons _ before ih =>
    cases count with
    | zero => cases split
    | succ count => exact ih (List.cons.inj split).2

section

variable (inside : cursor.Inside) (below : cursor.position < 0)
include inside below

/-- From below zero a call comes to the same as from the start of the source, if there is no NUL on the way. -/
theorem token_rewound (going : nul ∉ cursor.tail) :
    Call.token.on cursor = Call.token.on (cursor.moved cursor.tail) := by
  have counted := length_tail inside below
  have start : (cursor.moved cursor.tail).position = 0 := by
    simp only [moved]
    omega
  have ahead : (cursor.moved cursor.tail).ahead = cursor.source := ahead_moved inside (ahead_of_lt below)
  have whole {text rest : Text} (divided : (cursor.moved cursor.tail).ahead = text ++ rest) :
      cursor.ahead = (cursor.tail ++ text) ++ rest := by
    rw [ahead_of_lt below, List.append_assoc, ← divided, ahead]
  have passes {text : Text} (passed : Passed (cursor.moved cursor.tail).position text) :
      Passed cursor.position (cursor.tail ++ text) := .of_lt going (by omega) passed
  rcases Call.token_cases (inside.moved cursor.tail) with ⟨text, rest, divided, passed, none, called⟩ |
    ⟨text, kind, literal, rest, divided, passed, later, lexical, apart, called⟩
  · rw [called, Call.token_ended inside (whole divided) (passes passed) none, moved_append, Location.past_append]
    rfl
  · rw [← moved_append] at later
    rw [called, Call.token_found inside (whole divided) (passes passed) later lexical apart, moved_append,
      Location.past_append]
    rfl

theorem token_stopped (split : cursor.tail = front ++ nul :: back) (going : nul ∉ front) :
    Call.token.on cursor = (.ok ⟨.eof, [], cursor.location.past front⟩, cursor.moved front) := by
  have counted := length_tail inside below
  rw [split, List.length_append] at counted
  have divided : cursor.ahead = front ++ nul :: (back ++ cursor.source) := by
    rw [ahead_of_lt below, split, List.append_assoc, List.cons_append]
  have passed : Passed cursor.position (front ++ []) := .of_lt going (by omega) .nil
  rw [List.append_nil] at passed
  exact Call.token_ended inside divided passed rfl

end

/-- Tokens from any start. A call fails just where the cursor is too far below zero, where it stays. From zero on the
calls give the tokens of the text from there on, moved to the location of the cursor. From below zero they give those
from the start of the source, at the location behind its last characters; but a NUL among these ends the source, and
the cursor stands on it. After the end, all calls come to the same. -/
theorem calls_everywhere (cursor : Cursor) (count : Nat) :
    (∀ call ∈ cursor.calls count, (∀ place line, call.1 ≠ .error (.pastEnd place line)) ∧
        (call.1 = .error .outOfRange ↔ cursor.position < -cursor.size) ∧
        (call.1 = .error .outOfRange → call.2 = cursor)) ∧
      (0 ≤ cursor.position → (cursor.calls count).map Prod.fst =
        ((scan (cursor.source.drop cursor.position.toNat)).firsts count).map fun token =>
          .ok (token.moved cursor.location)) ∧
      (-cursor.size ≤ cursor.position → cursor.position < 0 →
        (nul ∉ cursor.tail →
          cursor.calls count = calls ⟨cursor.source, 0, cursor.location.past cursor.tail⟩ count) ∧
        ∀ front back, cursor.tail = front ++ nul :: back → nul ∉ front →
          Call.token.on cursor = (.ok ⟨.eof, [], cursor.location.past front⟩,
            ⟨cursor.source, cursor.position + front.length, cursor.location.past front⟩)) ∧
      ∀ before call later token, cursor.calls count = before ++ call :: later → call.1 = .ok token →
        token.kind = .eof → ∀ other ∈ later, other = call := by
  refine ⟨fun call member => ?_, fun start => ?_, fun inside below => ⟨fun going => ?_, fun front back split going => ?_⟩,
    fun before call later token split => calls_ended split⟩
  · by_cases inside : cursor.Inside
    · obtain ⟨token, answered⟩ := calls_answered inside count call member
      rw [answered]
      exact ⟨nofun, ⟨nofun, fun outside => absurd inside (Int.not_le.mpr outside)⟩, nofun⟩
    · obtain rfl := calls_stay (token_outside inside) count call member
      exact ⟨nofun, ⟨fun _ => Int.not_le.mp inside, fun _ => rfl⟩, fun _ => rfl⟩
  · rw [calls_scanned start, ahead_of_le start, scanFrom_firsts, List.map_map]
    rfl
  · have start : cursor.moved cursor.tail = ⟨cursor.source, 0, cursor.location.past cursor.tail⟩ := by
      rw [moved, length_tail inside below, Int.add_right_neg]
    rw [← start]
    cases count with
    | zero => rfl
    | succ count => rw [calls, calls, token_rewound inside below going]
  · exact token_stopped inside below split going

/-- A line ending and a mark are passed from two below zero on, and are read again at their places. -/
theorem calls_everywhere_below :
    nul ∉ tail ⟨"=1\n!".toList, -2, ⟨7, 5⟩⟩ ∧
      (calls ⟨"=1\n!".toList, -2, ⟨7, 5⟩⟩ 5).map Prod.fst =
        [.ok ⟨.assign, ['='], ⟨8, 2⟩⟩, .ok ⟨.int, ['1'], ⟨8, 3⟩⟩, .ok ⟨.bang, ['!'], ⟨9, 1⟩⟩, .ok ⟨.eof, [], ⟨9, 2⟩⟩,
          .ok ⟨.eof, [], ⟨9, 2⟩⟩] := by
  have going : nul ∉ tail ⟨"=1\n!".toList, -2, ⟨7, 5⟩⟩ := by decide
  obtain ⟨_, _, rewound, _⟩ := calls_everywhere ⟨"=1\n!".toList, -2, ⟨7, 5⟩⟩ 5
  obtain ⟨_, scanned, _⟩ := calls_everywhere ⟨"=1\n!".toList, 0, ⟨8, 2⟩⟩ 5
  have same := (rewound (by decide) (by decide)).1 going
  exact ⟨going, (congrArg (List.map Prod.fst) same).trans ((scanned (Int.le_refl 0)).trans rfl)⟩

end Cursor

end Mana
