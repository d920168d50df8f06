import Mathlib.Tactic.Common
import Mana.Text.Utf8

/-! Decoding undoes the UTF-8 encoding of a text, and accepts nothing else. -/
namespace Mana.Utf8

section Leads
variable {byte : UInt8}

theorem lead?_one (below : byte.toNat < 0x80) : lead? byte = some ⟨0, byte.toNat, 0x80, 0xbf⟩ := if_pos below

theorem lead?_two (low : 0xc2 ≤ byte.toNat) (high : byte.toNat < 0xe0) :
    lead? byte = some ⟨1, byte.toNat - 0xc0, 0x80, 0xbf⟩ := by
  grind [lead?]

theorem lead?_three (low : 0xe0 ≤ byte.toNat) (high : byte.toNat < 0xf0) :
    lead? byte = some ⟨2, byte.toNat - 0xe0, if byte.toNat = 0xe0 then 0xa0 else 0x80,
      if byte.toNat = 0xed then 0x9f else 0xbf⟩ := by
  grind [lead?]

theorem lead?_four (low : 0xf0 ≤ byte.toNat) (high : byte.toNat < 0xf5) :
    lead? byte = some ⟨3, byte.toNat - 0xf0, if byte.toNat = 0xf0 then 0x90 else 0x80,
      if byte.toNat = 0xf4 then 0x8f else 0xbf⟩ := by
  grind [lead?]

theorem lead?_none (outside : 0x80 ≤ byte.toNat ∧ byte.toNat < 0xc2 ∨ 0xf5 ≤ byte.toNat) : lead? byte = none := by
  grind [lead?]

end Leads

/-- A byte behind the first one of a character. -/
def Follows (byte : UInt8) : Prop := 0x80 ≤ byte.toNat ∧ byte.toNat ≤ 0xbf

theorem follows_within {byte : UInt8} {first lowest highest : Nat} (low : 0x80 ≤ least) (high : most ≤ 0xbf) :
    (if first = lowest then least else 0x80) ≤ byte.toNat ∧ byte.toNat ≤ (if first = highest then most else 0xbf) ↔
      Follows byte ∧ (first = lowest → least ≤ byte.toNat) ∧ (first = highest → byte.toNat ≤ most) := by
  unfold Follows
  split <;> split <;> omega

/-- The number of a character by the bytes of its shortest form. -/
inductive Form : Nat → List UInt8 → Prop where
  | one {a : UInt8} (below : a.toNat < 0x80) : Form a.toNat [a]
  | two {a b : UInt8} (low : 0xc2 ≤ a.toNat) (high : a.toNat < 0xe0) (second : Follows b) :
      Form ((a.toNat - 0xc0) * 0x40 + (b.toNat - 0x80)) [a, b]
  | three {a b c : UInt8} (low : 0xe0 ≤ a.toNat) (high : a.toNat < 0xf0) (second : Follows b) (third : Follows c)
      (shortest : a.toNat = 0xe0 → 0xa0 ≤ b.toNat) (character : a.toNat = 0xed → b.toNat ≤ 0x9f) :
      Form (((a.toNat - 0xe0) * 0x40 + (b.toNat - 0x80)) * 0x40 + (c.toNat - 0x80)) [a, b, c]
  | four {a b c d : UInt8} (low : 0xf0 ≤ a.toNat) (high : a.toNat < 0xf5) (second : Follows b) (third : Follows c)
      (fourth : Follows d) (shortest : a.toNat = 0xf0 → 0x90 ≤ b.toNat) (character : a.toNat = 0xf4 → b.toNat ≤ 0x8f) :
      Form ((((a.toNat - 0xf0) * 0x40 + (b.toNat - 0x80)) * 0x40 + (c.toNat - 0x80)) * 0x40 + (d.toNat - 0x80))
        [a, b, c, d]

theorem Form.isValidChar (form : Form n bytes) : n.isValidChar := by
  unfold Nat.isValidChar
  cases form with
  | one below => omega
  | two low high second =>
    obtain ⟨_, _⟩ := second
    omega
  | three low high second third shortest character =>
    obtain ⟨⟨_, _⟩, _, _⟩ := And.intro second third
    omega
  | four low high second third fourth shortest character =>
    obtain ⟨⟨_, _⟩, ⟨_, _⟩, _, _⟩ := And.intro second (And.intro third fourth)
    omega

theorem Form.toNat_ofNat (form : Form n bytes) : (Char.ofNat n).toNat = n := by
  rw [Char.ofNat, dif_pos form.isValidChar]
  rfl

theorem toUInt8_eq {byte : UInt8} (same : n = byte.toNat) : n.toUInt8 = byte := by
  rw [same]
  exact UInt8.ofNat_toNat

theorem Form.encoded (form : Form n bytes) : encodeChar (Char.ofNat n) = bytes := by
  unfold encodeChar
  rw [form.toNat_ofNat]
  cases form with
  | one below => exact (if_pos below).trans (congrArg ([·]) (toUInt8_eq rfl))
  | two low high second =>
    obtain ⟨_, _⟩ := second
    rw [if_neg (by omega), if_pos (by omega)]
    simp only [List.cons.injEq, and_true]
    exact ⟨toUInt8_eq (by omega), toUInt8_eq (by omega)⟩
  | three low high second third shortest character =>
    obtain ⟨⟨_, _⟩, _, _⟩ := And.intro second third
    rw [if_neg (by omega), if_neg (by omega), if_pos (by omega)]
    simp only [List.cons.injEq, and_true]
    exact ⟨toUInt8_eq (by omega), toUInt8_eq (by omega), toUInt8_eq (by omega)⟩
  | four low high second third fourth shortest character =>
    obtain ⟨⟨_, _⟩, ⟨_, _⟩, _, _⟩ := And.intro second (And.intro third fourth)
    rw [if_neg (by omega), if_neg (by omega), if_neg (by omega)]
    simp only [List.cons.injEq, and_true]
    exact ⟨toUInt8_eq (by omega), toUInt8_eq (by omega), toUInt8_eq (by omega), toUInt8_eq (by omega)⟩

theorem toNat_toUInt8 (byte : n < 0x100) : n.toUInt8.toNat = n := Nat.mod_eq_of_lt byte

theorem form_encodeChar (c : Char) : Form c.toNat (encodeChar c) := by
  have valid : c.toNat.isValidChar := c.valid
  unfold Nat.isValidChar at valid
  dsimp only [encodeChar]
  split_ifs with one two three
  · have form := @Form.one c.toNat.toUInt8
    rw [toNat_toUInt8 (by omega)] at form
    exact form one
  · have form := @Form.two (0xc0 + c.toNat / 0x40).toUInt8 (0x80 + c.toNat / 1 % 0x40).toUInt8
    unfold Follows at form
    rw [toNat_toUInt8 (by omega), toNat_toUInt8 (by omega)] at form
    convert form (by omega) (by omega) (by omega) using 1
    omega
  · have form := @Form.three (0xe0 + c.toNat / 0x1000).toUInt8 (0x80 + c.toNat / 0x40 % 0x40).toUInt8
      (0x80 + c.toNat / 1 % 0x40).toUInt8
    unfold Follows at form
    rw [toNat_toUInt8 (by omega), toNat_toUInt8 (by omega), toNat_toUInt8 (by omega)] at form
    convert form (by omega) (by omega) (by omega) (by omega) (by omega) (by omega) using 1
    omega
  · have form := @Form.four (0xf0 + c.toNat / 0x40000).toUInt8 (0x80 + c.toNat / 0x1000 % 0x40).toUInt8
      (0x80 + c.toNat / 0x40 % 0x40).toUInt8 (0x80 + c.toNat / 1 % 0x40).toUInt8
    unfold Follows at form
    rw [toNat_toUInt8 (by omega), toNat_toUInt8 (by omega), toNat_toUInt8 (by omega), toNat_toUInt8 (by omega)] at form
    convert form (by omega) (by omega) (by omega) (by omega) (by omega) (by omega) (by omega) using 1
    omega

section Decoding
variable {offset : Nat} {rest : List UInt8}

theorem decodeFrom_lead (leads : lead? byte = some lead) (others : lead.following ≠ 0) :
    decodeFrom offset none (byte :: rest) =
      decodeFrom (offset + 1) (some ⟨byte, offset, 1, lead.following, lead.bits, lead.low, lead.high⟩) rest := by
  simp only [decodeFrom, leads, others, if_false]

theorem decodeFrom_between (low : begun.low ≤ byte.toNat) (high : byte.toNat ≤ begun.high) (due : begun.due ≠ 1) :
    decodeFrom offset (some begun) (byte :: rest) =
      decodeFrom (offset + 1) (some ⟨begun.first, begun.offset, begun.seen + 1, begun.due - 1,
        begun.bits * 0x40 + (byte.toNat - 0x80), 0x80, 0xbf⟩) rest :=
  (if_pos (Bool.and_eq_true_iff.mpr ⟨decide_eq_true low, decide_eq_true high⟩)).trans (if_neg due)

theorem decodeFrom_last (low : begun.low ≤ byte.toNat) (high : byte.toNat ≤ begun.high) (due : begun.due = 1) :
    decodeFrom offset (some begun) (byte :: rest) =
      (decodeFrom (offset + 1) none rest).map (Char.ofNat (begun.bits * 0x40 + (byte.toNat - 0x80)) :: ·) :=
  (if_pos (Bool.and_eq_true_iff.mpr ⟨decide_eq_true low, decide_eq_true high⟩)).trans (if_pos due)

/-- A form is read as the character with its number. -/
theorem Form.decoded (form : Form n bytes) (offset : Nat) (rest : List UInt8) :
    ∃ behind, decodeFrom offset none (bytes ++ rest) = (decodeFrom behind none rest).map (Char.ofNat n :: ·) := by
  cases form with
  | one below =>
    refine ⟨offset + 1, ?_⟩
    simp only [List.cons_append, List.nil_append, decodeFrom, lead?_one below, if_true]
  | two low high second =>
    exact ⟨_, (decodeFrom_lead (lead?_two low high) Nat.one_ne_zero).trans (decodeFrom_last second.1 second.2 rfl)⟩
  | three low high second third shortest character =>
    obtain ⟨least, most⟩ := (follows_within (by decide) (by decide)).mpr ⟨second, shortest, character⟩
    exact ⟨_, (decodeFrom_lead (lead?_three low high) (Nat.succ_ne_zero 1)).trans
      ((decodeFrom_between least most (Nat.succ_succ_ne_one 0)).trans (decodeFrom_last third.1 third.2 rfl))⟩
  | four low high second third fourth shortest character =>
    obtain ⟨least, most⟩ := (follows_within (by decide) (by decide)).mpr ⟨second, shortest, character⟩
    exact ⟨_, (decodeFrom_lead (lead?_four low high) (Nat.succ_ne_zero 2)).trans
      ((decodeFrom_between least most (Nat.succ_succ_ne_one 1)).trans
        ((decodeFrom_between third.1 third.2 (Nat.succ_succ_ne_one 0)).trans (decodeFrom_last fourth.1 fourth.2 rfl)))⟩

theorem decodeFrom_begun (decoded : decodeFrom offset (some begun) bytes = .ok text) :
    ∃ byte rest, bytes = byte :: rest ∧ begun.low ≤ byte.toNat ∧ byte.toNat ≤ begun.high := by
  cases bytes with
  | nil => cases decoded
  | cons byte rest =>
    refine ⟨byte, rest, rfl, ?_⟩
    by_contra outside
    cases (if_neg (by simpa using outside)).symm.trans decoded

theorem form_of_decoded (decoded : decodeFrom offset none (a :: others) = .ok text) :
    ∃ n front rest, Form n front ∧ a :: others = front ++ rest := by
  by_cases one : a.toNat < 0x80
  · exact ⟨_, [a], others, .one one, rfl⟩
  by_cases two : 0xc2 ≤ a.toNat ∧ a.toNat < 0xe0
  · rw [decodeFrom_lead (lead?_two two.1 two.2) Nat.one_ne_zero] at decoded
    obtain ⟨b, rest, rfl, second⟩ := decodeFrom_begun decoded
    exact ⟨_, [a, b], rest, .two two.1 two.2 second, rfl⟩
  by_cases three : 0xe0 ≤ a.toNat ∧ a.toNat < 0xf0
  · rw [decodeFrom_lead (lead?_three three.1 three.2) (Nat.succ_ne_zero 1)] at decoded
    obtain ⟨b, rest, rfl, least, most⟩ := decodeFrom_begun decoded
    rw [decodeFrom_between least most (Nat.succ_succ_ne_one 0)] at decoded
    obtain ⟨c, rest, rfl, third⟩ := decodeFrom_begun decoded
    obtain ⟨second, shortest, character⟩ := (follows_within (by decide) (by decide)).mp ⟨least, most⟩
    exact ⟨_, [a, b, c], rest, .three three.1 three.2 second third shortest character, rfl⟩
  by_cases four : 0xf0 ≤ a.toNat ∧ a.toNat < 0xf5
  · rw [decodeFrom_lead (lead?_four four.1 four.2) (Nat.succ_ne_zero 2)] at decoded
    obtain ⟨b, rest, rfl, least, most⟩ := decodeFrom_begun decoded
    rw [decodeFrom_between least most (Nat.succ_succ_ne_one 1)] at decoded
    obtain ⟨c, rest, rfl, third⟩ := decodeFrom_begun decoded
    rw [decodeFrom_between third.1 third.2 (Nat.succ_succ_ne_one 0)] at decoded
    obtain ⟨d, rest, rfl, fourth⟩ := decodeFrom_begun decoded
    obtain ⟨second, shortest, character⟩ := (follows_within (by decide) (by decide)).mp ⟨least, most⟩
    exact ⟨_, [a, b, c, d], rest, .four four.1 four.2 second third fourth shortest character, rfl⟩
  have nothing : lead? a = none := lead?_none (by omega)
  simp only [decodeFrom, nothing] at decoded
  cases decoded

theorem decoded_cons (decoded : decodeFrom offset none (a :: others) = .ok text) :
    ∃ n front rest behind later, Form n front ∧ a :: others = front ++ rest ∧ text = Char.ofNat n :: later ∧
      decodeFrom behind none rest = .ok later := by
  obtain ⟨n, front, rest, form, divided⟩ := form_of_decoded decoded
  obtain ⟨behind, read⟩ := form.decoded offset rest
  rw [divided, read] at decoded
  cases later : decodeFrom behind none rest with
  | error fault =>
    rw [later] at decoded
    cases decoded
  | ok rest' =>
    rw [later] at decoded
    exact ⟨n, front, rest, behind, rest', form, divided, (Except.ok.inj decoded).symm, later⟩

end Decoding

theorem encode_cons (c : Char) (text : Text) : encode (c :: text) = encodeChar c ++ encode text := List.flatMap_cons

theorem decodeFrom_encode (offset : Nat) (text : Text) : decodeFrom offset none (encode text) = .ok text := by
  induction text generalizing offset with
  | nil => rfl
  | cons c text ih =>
    obtain ⟨behind, read⟩ := (form_encodeChar c).decoded offset (encode text)
    rw [encode_cons, read, ih, Char.ofNat_toNat]
    rfl

theorem encode_of_decodeFrom (decoded : decodeFrom offset none bytes = .ok text) : bytes = encode text := by
  induction text generalizing bytes offset with
  | nil =>
    cases bytes with
    | nil => rfl
    | cons byte others =>
      obtain ⟨_, _, _, _, _, _, _, same, _⟩ := decoded_cons decoded
      cases same
  | cons c text ih =>
    cases bytes with
    | nil => cases decoded
    | cons byte others =>
      obtain ⟨n, front, rest, behind, later, form, divided, same, decoded⟩ := decoded_cons decoded
      cases same
      rw [divided, encode_cons, form.encoded, ih decoded]

/-- The bytes that are read as a text are the ones in which it is written. -/
theorem decode_iff : decode bytes = .ok text ↔ bytes = encode text := by
  constructor
  · exact encode_of_decodeFrom
  · rintro rfl
    exact decodeFrom_encode 0 text

theorem encode_injective (same : encode text = encode other) : text = other :=
  Except.ok.inj ((decode_iff.mpr rfl).symm.trans (decode_iff.mpr same))

end Mana.Utf8
