import Mana.Proofs.Token.Pieces
import Mana.Token.Cursor

/-! Calls on a cursor. What a cursor takes is known by the text ahead of it, which below zero is the end of the source
and then all of it. A cursor that is not too far below zero takes that text without a failure. -/
namespace Mana.Cursor

variable {cursor after : Cursor}

namespace Call

theorem on_pure (answer : α) (cursor : Cursor) : (pure answer : Call α).on cursor = (.ok answer, cursor) := rfl

theorem on_get_bind (next : Cursor → Call α) (cursor : Cursor) : (get >>= next).on cursor = (next cursor).on cursor :=
  rfl

private theorem on_bind (call : Call α) (next : α → Call β) (cursor : Cursor) :
    (call >>= next).on cursor = ExceptT.bindCont next (call.on cursor).1 (call.on cursor).2 := rfl

theorem on_bind_ok {call : Call α} {next : α → Call β} (answered : call.on cursor = (.ok answer, after)) :
    (call >>= next).on cursor = (next answer).on after := by
  rw [on_bind, answered]
  rfl

theorem on_bind_error {call : Call α} {next : α → Call β} (failed : call.on cursor = (.error fault, after)) :
    (call >>= next).on cursor = (.error fault, after) := by
  rw [on_bind, failed]
  rfl

end Call

/-- A cursor that is not further below zero than the source is long. -/
def Inside (cursor : Cursor) : Prop := -cursor.size ≤ cursor.position

theorem inside_of_le (start : 0 ≤ cursor.position) : cursor.Inside :=
  Int.le_trans (Int.neg_nonpos_of_nonneg (Int.natCast_nonneg _)) start

/-- The last characters of the source, as many as the position is below zero. -/
def tail (cursor : Cursor) : Text := cursor.source.drop (cursor.position + cursor.size).toNat

/-- The characters that may be taken from the position on. -/
def ahead (cursor : Cursor) : Text :=
  if 0 ≤ cursor.position then cursor.source.drop cursor.position.toNat
  else cursor.tail ++ cursor.source

/-- The cursor behind a text. -/
def moved (cursor : Cursor) (text : Text) : Cursor :=
  { cursor with position := cursor.position + text.length, location := cursor.location.past text }

@[simp] theorem moved_nil (cursor : Cursor) : cursor.moved [] = cursor := by
  simp [moved]

theorem moved_append (cursor : Cursor) (first second : Text) :
    cursor.moved (first ++ second) = (cursor.moved first).moved second := by
  simp [moved, Location.past_append, Int.add_assoc]

theorem Inside.moved (inside : cursor.Inside) (text : Text) : (cursor.moved text).Inside := by
  simp only [Inside, Cursor.moved, size] at inside ⊢
  omega

theorem ahead_of_le (start : 0 ≤ cursor.position) : cursor.ahead = cursor.source.drop cursor.position.toNat := if_pos start

theorem ahead_of_lt (below : cursor.position < 0) : cursor.ahead = cursor.tail ++ cursor.source :=
  if_neg (Int.not_le.mpr below)

theorem length_tail (inside : cursor.Inside) (below : cursor.position < 0) : (cursor.tail.length : Int) = -cursor.position := by
  simp only [Inside, size] at inside
  rw [tail, size, List.length_drop]
  omega

private theorem held_of_lt (inside : cursor.Inside) (below : cursor.position < 0) :
    ∃ c, cursor.held? = some c ∧ cursor.ahead = c :: (cursor.moved [c]).ahead := by
  have within : (cursor.position + cursor.size).toNat < cursor.source.length := by
    simp only [Inside, size] at inside ⊢
    omega
  have next (c : Char) : (cursor.moved [c]).ahead =
      cursor.source.drop ((cursor.position + cursor.size).toNat + 1) ++ cursor.source := by
    have index : (cursor.position + 1 + cursor.size).toNat = (cursor.position + cursor.size).toNat + 1 := by
      simp only [Inside] at inside
      omega
    by_cases last : cursor.position + 1 = 0
    · have none : cursor.source.length ≤ (cursor.position + cursor.size).toNat + 1 := by
        simp only [size]
        omega
      rw [ahead_of_le (Int.le_of_eq last.symm), List.drop_of_length_le none]
      exact congrArg (fun position => cursor.source.drop position.toNat) last
    · rw [ahead_of_lt (show cursor.position + 1 < 0 by omega), ← index]
      rfl
  refine ⟨cursor.source[(cursor.position + cursor.size).toNat], ?_, ?_⟩
  · rw [held?, if_neg (Int.not_le.mpr below), if_pos (by simp only [Inside] at inside; omega),
      List.getElem?_eq_getElem within]
  · rw [next, ahead_of_lt below, tail, List.drop_eq_getElem_cons within, List.cons_append]

private theorem held_of_le (start : 0 ≤ cursor.position) (within : cursor.position < cursor.size) :
    ∃ c, cursor.held? = some c ∧ cursor.ahead = c :: (cursor.moved [c]).ahead := by
  have within : cursor.position.toNat < cursor.source.length := by
    simp only [size] at within
    omega
  have index : (cursor.position + 1).toNat = cursor.position.toNat + 1 := by omega
  refine ⟨cursor.source[cursor.position.toNat], ?_, ?_⟩
  · rw [held?, if_pos start, List.getElem?_eq_getElem within]
  · rw [ahead_of_le start, ahead_of_le (show 0 ≤ cursor.position + 1 by omega), List.drop_eq_getElem_cons within, ← index]
    rfl

theorem Inside.cases (inside : cursor.Inside) :
    cursor.size ≤ cursor.position ∧ cursor.ahead = [] ∨
      ∃ c, cursor.position < cursor.size ∧ cursor.held? = some c ∧ cursor.ahead = c :: (cursor.moved [c]).ahead := by
  rcases Int.lt_or_le cursor.position 0 with below | start
  · obtain ⟨c, held, first⟩ := held_of_lt inside below
    exact .inr ⟨c, Int.lt_of_lt_of_le below (Int.natCast_nonneg _), held, first⟩
  · rcases Int.lt_or_le cursor.position cursor.size with within | past
    · obtain ⟨c, held, first⟩ := held_of_le start within
      exact .inr ⟨c, within, held, first⟩
    · refine .inl ⟨past, ?_⟩
      rw [ahead_of_le start, List.drop_eq_nil_iff]
      simp only [size] at past
      omega

/-- A cursor too far below zero fails as soon as it is asked whether the source has ended. -/
theorem ended_of_lt (outside : ¬ cursor.Inside) : cursor.ended = .error .outOfRange := by
  simp only [Inside, size] at outside
  rw [ended, if_neg (by simp only [size]; omega), held?, if_neg (by omega), if_neg (by simp only [size]; omega)]

theorem ended_nil (inside : cursor.Inside) (none : cursor.ahead = []) : cursor.ended = .ok true := by
  rcases inside.cases with ⟨past, _⟩ | ⟨c, _, _, first⟩
  · rw [ended, if_pos past]
  · rw [none] at first
    cases first

section

variable {c : Char} {rest : Text} (inside : cursor.Inside) (first : cursor.ahead = c :: rest)
include inside first

theorem ended_cons : cursor.ended = .ok (c = nul) := by
  rcases inside.cases with ⟨_, none⟩ | ⟨d, within, held, split⟩
  · rw [none] at first
    cases first
  · cases first.symm.trans split
    rw [ended, if_neg (Int.not_le.mpr within), held]

theorem ahead_moved_cons : (cursor.moved [c]).ahead = rest := by
  rcases inside.cases with ⟨_, none⟩ | ⟨d, _, _, split⟩
  · rw [none] at first
    cases first
  · cases first.symm.trans split
    rfl

theorem next_cons : Call.next.on cursor = (.ok c, cursor.moved [c]) := by
  rcases inside.cases with ⟨_, none⟩ | ⟨d, within, held, split⟩
  · rw [none] at first
    cases first
  · cases first.symm.trans split
    have taken : cursor.next = .ok (c, cursor.moved [c]) := by
      rw [next, if_neg (Int.not_le.mpr within), held]
      rfl
    simp only [Call.on, Call.next, ExceptT.run, ExceptT.mk, taken]

end

theorem ahead_moved {text rest : Text} (inside : cursor.Inside) (divided : cursor.ahead = text ++ rest) :
    (cursor.moved text).ahead = rest := by
  induction text generalizing cursor with
  | nil => rw [moved_nil, divided, List.nil_append]
  | cons c text ih =>
    have next := ahead_moved_cons inside divided
    exact moved_append cursor [c] text ▸ ih (inside.moved [c]) next

theorem peek_zero (cursor : Cursor) :
    cursor.peek 0 = if 0 ≤ cursor.position then cursor.ahead.head? else none := by
  rw [peek, Int.add_zero]
  by_cases below : cursor.position < 0
  · rw [if_pos below, if_neg (by omega)]
  · rw [if_neg below, if_pos (by omega), ahead, if_pos (by omega), List.head?_drop]

theorem length_ahead (inside : cursor.Inside) : cursor.ahead.length = cursor.distance := by
  rcases Int.lt_or_le cursor.position 0 with below | start
  · have counted := length_tail inside below
    rw [ahead_of_lt below, List.length_append, distance, size]
    omega
  · rw [ahead_of_le start, List.length_drop, distance, size]
    omega

/-- A text that is passed for space from a place on: below zero that is any text without NUL. -/
inductive Passed : Int → Text → Prop where
  | nil : Passed place []
  | cons (going : c ≠ nul) (space : 0 ≤ place → isSpace c = true) (others : Passed (place + 1) text) :
      Passed place (c :: text)

/-- No character is passed at the position. -/
def Stops (cursor : Cursor) : Prop :=
  ∀ c, cursor.ahead.head? = some c → c = nul ∨ 0 ≤ cursor.position ∧ isSpace c = false

namespace Passed

theorem spaces (passed : Passed place text) (start : 0 ≤ place) : ∀ c ∈ text, isSpace c = true := by
  induction passed with
  | nil => simp
  | cons _ space _ ih => exact List.forall_mem_cons.mpr ⟨space start, ih (by omega)⟩

theorem of_lt {place : Int} (going : nul ∉ text) (below : place + text.length ≤ 0)
    (others : Passed (place + text.length) rest) : Passed place (text ++ rest) := by
  induction text generalizing place with
  | nil => simpa using others
  | cons c text ih =>
    obtain ⟨first, going⟩ := not_or.mp (List.mem_cons.not.mp going)
    have next : place + (c :: text).length = place + 1 + text.length := by
      rw [List.length_cons]
      omega
    rw [next] at below others
    exact .cons (Ne.symm first) (fun start => by omega) (ih going below others)

theorem exists_stops (inside : cursor.Inside) :
    ∃ text rest, cursor.ahead = text ++ rest ∧ Passed cursor.position text ∧ (cursor.moved text).Stops := by
  generalize same : cursor.ahead = whole
  induction whole generalizing cursor with
  | nil =>
    refine ⟨[], [], rfl, .nil, ?_⟩
    rw [moved_nil, Stops, same]
    rintro c ⟨⟩
  | cons c whole ih =>
    by_cases stops : c = nul ∨ 0 ≤ cursor.position ∧ isSpace c = false
    · refine ⟨[], c :: whole, rfl, .nil, ?_⟩
      rw [moved_nil, Stops, same]
      rintro d ⟨⟩
      exact stops
    · obtain ⟨going, space⟩ := not_or.mp stops
      obtain ⟨text, rest, divided, passed, behind⟩ := ih (inside.moved [c]) (ahead_moved_cons inside same)
      refine ⟨c :: text, rest, congrArg (c :: ·) divided, .cons going (fun start => ?_) passed, ?_⟩
      · simpa [start] using space
      · exact moved_append cursor [c] text ▸ behind

end Passed

namespace Call

theorem takeUpTo_passed (inside : cursor.Inside) (divided : cursor.ahead = text ++ rest)
    (passed : Passed cursor.position text) (stops : (cursor.moved text).Stops) (enough : text.length ≤ most) :
    (takeUpTo (fun seen => seen.all isSpace) most).on cursor = (.ok text, cursor.moved text) := by
  induction most generalizing cursor text with
  | zero =>
    obtain rfl := List.eq_nil_of_length_eq_zero (Nat.le_zero.mp enough)
    rw [moved_nil]
    rfl
  | succ most ih =>
    have asked : ended.on cursor = (cursor.ended, cursor) := rfl
    rw [takeUpTo]
    cases passed with
    | nil =>
      rw [moved_nil] at stops ⊢
      cases first : cursor.ahead with
      | nil =>
        rw [ended_nil inside first] at asked
        rw [on_bind_ok asked, on_get_bind]
        rfl
      | cons c more =>
        rw [ended_cons inside first] at asked
        rw [on_bind_ok asked, on_get_bind, peek_zero, first]
        rcases stops c (congrArg List.head? first) with rfl | ⟨start, visible⟩
        · rfl
        · rw [if_pos start]
          simp [visible, on_pure]
    | @cons c _ text going space others =>
      rw [ended_cons inside divided, decide_eq_false going] at asked
      have wanted : (cursor.peek 0).all isSpace = true := by
        rw [peek_zero, divided]
        split
        · rename_i start
          exact space start
        · rfl
      have behind := ih (inside.moved [c]) (ahead_moved_cons inside divided) others
        (moved_append cursor [c] text ▸ stops) (Nat.le_of_succ_le_succ enough)
      rw [on_bind_ok asked, on_get_bind, wanted]
      exact (on_bind_ok (next_cons inside divided)).trans ((on_bind_ok behind).trans (by rw [← moved_append]; rfl))

theorem skipSpace_on (inside : cursor.Inside) (divided : cursor.ahead = text ++ rest)
    (passed : Passed cursor.position text) (stops : (cursor.moved text).Stops) :
    skipSpace.on cursor = (.ok (), cursor.moved text) := by
  have enough : text.length ≤ cursor.distance := by
    rw [← length_ahead inside, divided, List.length_append]
    omega
  have taken := takeUpTo_passed inside divided passed stops enough
  have whole : (takeWhile fun seen => seen.all isSpace).on cursor = (.ok text, cursor.moved text) := taken
  exact on_bind_ok whole

theorem takeExactly_on (inside : cursor.Inside) (divided : cursor.ahead = text ++ rest) :
    (takeExactly text.length).on cursor = (.ok (), cursor.moved text) := by
  induction text generalizing cursor with
  | nil =>
    rw [moved_nil]
    rfl
  | cons c text ih =>
    rw [List.length_cons, takeExactly, on_bind_ok (next_cons inside divided),
      ih (inside.moved [c]) (ahead_moved_cons inside divided), ← moved_append]
    rfl

variable {text rest : Text} (inside : cursor.Inside)
include inside

/-- Where the source has ended behind what is passed, there the end is located and the cursor stops. -/
theorem token_ended (divided : cursor.ahead = text ++ rest) (passed : Passed cursor.position text)
    (ended : rest.beforeNul = []) :
    token.on cursor = (.ok ⟨.eof, [], cursor.location.past text⟩, cursor.moved text) := by
  have behind : (cursor.moved text).ahead = rest := ahead_moved inside divided
  have done : (cursor.moved text).ended = .ok true := by
    cases rest with
    | nil => exact ended_nil (inside.moved text) behind
    | cons c rest =>
      obtain rfl := Text.nul_of_beforeNul ended
      exact ended_cons (inside.moved text) behind
  have stops : (cursor.moved text).Stops := by
    rw [Stops, behind]
    rintro c first
    cases rest with
    | nil => cases first
    | cons d rest =>
      obtain rfl := Text.nul_of_beforeNul ended
      exact .inl (Option.some.inj first).symm
  have asked : Call.ended.on (cursor.moved text) = (.ok true, cursor.moved text) := congrArg (·, _) done
  rw [token, on_bind_ok (skipSpace_on inside divided passed stops), on_get_bind, on_bind_ok asked]
  rfl

/-- A token is found behind what is passed, and the cursor goes on behind its text. -/
theorem token_found (divided : cursor.ahead = text ++ (literal ++ rest)) (passed : Passed cursor.position text)
    (start : 0 ≤ (cursor.moved text).position) (lexical : Lexical kind literal) (apart : Apart kind literal rest) :
    token.on cursor =
      (.ok ⟨kind, literal, cursor.location.past text⟩, (cursor.moved text).moved literal) := by
  obtain ⟨first, more, rfl⟩ := List.exists_cons_of_ne_nil lexical.visible
  obtain ⟨found, going, visible⟩ := lexical.lexeme_eq apart
  have behind : (cursor.moved text).ahead = first :: (more ++ rest) := ahead_moved inside divided
  have stops : (cursor.moved text).Stops := by
    rw [Stops, behind]
    rintro c ⟨⟩
    exact .inr ⟨start, visible⟩
  have asked : Call.ended.on (cursor.moved text) = (.ok false, cursor.moved text) := by
    have more := ended_cons (inside.moved text) behind
    rw [decide_eq_false going] at more
    exact congrArg (·, _) more
  have left : (cursor.moved text).source.drop (cursor.moved text).position.toNat = first :: (more ++ rest) := by
    rw [← ahead_of_le start, behind]
  have taken : (takeExactly (first :: more).length).on (cursor.moved text) =
      (.ok (), (cursor.moved text).moved (first :: more)) := takeExactly_on (inside.moved text) behind
  rw [token, on_bind_ok (skipSpace_on inside divided passed stops), on_get_bind, on_bind_ok asked]
  simp only [left, found]
  exact on_bind_ok taken

/-- What a call for a token comes to: the end, or a token of the source. -/
theorem token_cases :
    (∃ text rest, cursor.ahead = text ++ rest ∧ Passed cursor.position text ∧ rest.beforeNul = [] ∧
        token.on cursor = (.ok ⟨.eof, [], cursor.location.past text⟩, cursor.moved text)) ∨
      ∃ text kind literal rest, cursor.ahead = text ++ (literal ++ rest) ∧ Passed cursor.position text ∧
        0 ≤ (cursor.moved text).position ∧ Lexical kind literal ∧ Apart kind literal rest ∧
        token.on cursor =
          (.ok ⟨kind, literal, cursor.location.past text⟩, (cursor.moved text).moved literal) := by
  obtain ⟨text, rest, divided, passed, stops⟩ := Passed.exists_stops inside
  rw [Stops, ahead_moved inside divided] at stops
  by_cases ended : rest.beforeNul = []
  · exact .inl ⟨text, rest, divided, passed, ended, token_ended inside divided passed ended⟩
  · cases rest with
    | nil => exact absurd rfl ended
    | cons first rest =>
      rcases stops first rfl with rfl | ⟨start, visible⟩
      · exact absurd rfl ended
      · have going : first ≠ nul := by
          rintro rfl
          exact absurd rfl ended
        obtain ⟨kind, more, left, _, rfl, lexical, apart⟩ := exists_lexical going visible rest
        exact .inr ⟨text, kind, first :: more, left, divided, passed, start, lexical, apart,
          token_found inside divided passed start lexical apart⟩

end Call

end Mana.Cursor
