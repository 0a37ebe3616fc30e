import Mathlib.Algebra.Group.Nat.Defs
import ReactSite.Text.Utf8
/-!
# Encoding — strict reading takes back what writing gives, and nothing else

The bytes after the first one hold six bits of the code point each (`trail`).  A code point is read from bytes just when
these start with the bytes of its character (`codePoint_eq_some_iff`), so the strict reader takes a byte sequence just
when it is the UTF-8 form of a text, and gives this text (`decode_eq_ok_iff`).
-/
namespace ReactSite
namespace Text

open String (utf8EncodeChar)

/-! ## The bytes after the first one -/

/-- **The last `n` bytes of a code point**, six bits in each. -/
def trail (v : Nat) : Nat → List UInt8
  | 0     => []
  | n + 1 => UInt8.ofNat (v / 64 ^ n % 64 + 128) :: trail v n

variable {lo hi b : UInt8} {rest after : List UInt8} {n acc v : Nat}

theorem continuation_cons {x : UInt8} {more : List UInt8} :
    continuation lo hi (n + 1) acc (x :: more) = (some v, after) ↔ (lo.toNat ≤ x.toNat ∧ x.toNat ≤ hi.toNat) ∧
      continuation 0x80 0xbf n (acc * 64 + x.toNat % 64) more = (some v, after) := by
  rw [continuation, ← UInt8.le_iff_toNat_le, ← UInt8.le_iff_toNat_le]
  by_cases h : lo ≤ x ∧ x ≤ hi
  · rw [if_pos h]
    exact (and_iff_right h).symm
  · rw [if_neg h]
    exact iff_of_false (by simp) fun h' => h h'.1

/-- One more byte in front, within bounds of its own. -/
theorem continuation_succ_eq_some_iff (hlo : 0x80 ≤ lo.toNat) (hhi : hi.toNat ≤ 0xbf)
    (htrail : ∀ acc rest, continuation 0x80 0xbf n acc rest = (some v, after) ↔
      v / 64 ^ n = acc ∧ rest = trail v n ++ after) :
    continuation lo hi (n + 1) acc rest = (some v, after) ↔ v / 64 ^ (n + 1) = acc ∧ rest = trail v (n + 1) ++ after ∧
      lo.toNat ≤ v / 64 ^ n % 64 + 128 ∧ v / 64 ^ n % 64 + 128 ≤ hi.toNat := by
  have hstep : v / 64 ^ (n + 1) = v / 64 ^ n / 64 := by rw [Nat.pow_succ, Nat.div_div_eq_div_mul]
  rw [hstep, trail, List.cons_append]
  generalize v / 64 ^ n = q at htrail
  have hbyte : (UInt8.ofNat (q % 64 + 128)).toNat = q % 64 + 128 := by
    rw [UInt8.toNat_ofNat']
    omega
  cases rest with
  | nil => simp [continuation]
  | cons x more =>
    rw [continuation_cons, htrail, List.cons.injEq, ← UInt8.toNat_inj, hbyte]
    constructor
    · rintro ⟨⟨hx, hx'⟩, hq, hmore⟩
      refine ⟨by omega, ⟨by omega, hmore⟩, by omega, by omega⟩
    · rintro ⟨hq, ⟨hx, hmore⟩, hlo', hhi'⟩
      refine ⟨⟨by omega, by omega⟩, by omega, hmore⟩

theorem continuation_eq_some_iff : ∀ {n acc : Nat} {rest : List UInt8},
    continuation 0x80 0xbf n acc rest = (some v, after) ↔ v / 64 ^ n = acc ∧ rest = trail v n ++ after
  | 0, acc, rest     => by simp [continuation, trail, eq_comm]
  | n + 1, acc, rest => by
    rw [continuation_succ_eq_some_iff (by decide) (by decide) fun _ _ => continuation_eq_some_iff]
    have hbound : (0x80 : UInt8).toNat ≤ v / 64 ^ n % 64 + 128 ∧ v / 64 ^ n % 64 + 128 ≤ (0xbf : UInt8).toNat := by
      have h : (0x80 : UInt8).toNat = 128 := rfl
      have h' : (0xbf : UInt8).toNat = 191 := rfl
      omega
    simp only [hbound, and_true]

/-- The byte after the first one may have narrower bounds. -/
theorem continuation_narrow_eq_some_iff {p q : Prop} [Decidable p] [Decidable q] (hlo : 0x80 ≤ lo.toNat)
    (hhi : hi.toNat ≤ 0xbf) :
    continuation (if p then lo else 0x80) (if q then hi else 0xbf) (n + 1) acc rest = (some v, after) ↔
      v / 64 ^ (n + 1) = acc ∧ rest = trail v (n + 1) ++ after ∧ (p → lo.toNat ≤ v / 64 ^ n % 64 + 128) ∧
        (q → v / 64 ^ n % 64 + 128 ≤ hi.toNat) := by
  have hleast : (0x80 : UInt8).toNat = 128 := rfl
  have hmost : (0xbf : UInt8).toNat = 191 := rfl
  have hdigit : v / 64 ^ n % 64 < 64 := Nat.mod_lt _ (by decide)
  rw [continuation_succ_eq_some_iff (by split <;> omega) (by split <;> omega) fun _ _ => continuation_eq_some_iff]
  refine and_congr_right fun _ => and_congr_right fun _ => and_congr ?_ ?_
  · by_cases hp : p
    · simp [hp]
    · simp [hp]
  · by_cases hq : q
    · simp [hq]
    · simp only [hq, if_false, false_imp_iff, iff_true]
      omega

/-! ## One character -/

/-- **The form of a code point**: its first byte, and the bytes after it; surrogates have none. -/
inductive Form (v : Nat) (b : UInt8) : List UInt8 → Prop
  | one (hv : v < 0x80) (hb : b.toNat = v) : Form v b []
  | two (hlo : 0x80 ≤ v) (hhi : v < 0x800) (hb : b.toNat = v / 64 ^ 1 + 0xc0) : Form v b (trail v 1)
  | three (hlo : 0x800 ≤ v) (hhi : v < 0x10000) (hsurrogate : v < 0xd800 ∨ 0xdfff < v)
      (hb : b.toNat = v / 64 ^ 2 + 0xe0) : Form v b (trail v 2)
  | four (hlo : 0x10000 ≤ v) (hhi : v < 0x110000) (hb : b.toNat = v / 64 ^ 3 + 0xf0) : Form v b (trail v 3)

/-- The reader of a first byte, in numbers. -/
theorem codePoint_eq (b : UInt8) (rest : List UInt8) : codePoint b rest =
    if b.toNat < 0x80 then (some b.toNat, rest)
    else if b.toNat < 0xc2 then (none, rest)
    else if b.toNat < 0xe0 then continuation 0x80 0xbf 1 (b.toNat % 32) rest
    else if b.toNat < 0xf0 then
      continuation (if b.toNat = 0xe0 then 0xa0 else 0x80) (if b.toNat = 0xed then 0x9f else 0xbf) 2 (b.toNat % 16) rest
    else if b.toNat < 0xf5 then
      continuation (if b.toNat = 0xf0 then 0x90 else 0x80) (if b.toNat = 0xf4 then 0x8f else 0xbf) 3 (b.toNat % 8) rest
    else (none, rest) := by
  simp only [codePoint, UInt8.lt_iff_toNat_lt, ← UInt8.toNat_inj, UInt8.reduceToNat]

/-- **A code point is read just where its form stands.** -/
theorem codePoint_eq_some_iff :
    codePoint b rest = (some v, after) ↔ ∃ more, Form v b more ∧ rest = more ++ after := by
  rw [codePoint_eq]
  constructor
  · intro h
    split at h
    · rename_i hb
      cases h
      exact ⟨_, .one hb rfl, rfl⟩
    split at h
    · cases h
    split at h
    · rw [continuation_eq_some_iff] at h
      exact ⟨_, .two (by omega) (by omega) (by omega), h.2⟩
    split at h
    · rw [continuation_narrow_eq_some_iff (by decide) (by decide)] at h
      simp only [UInt8.reduceToNat] at h
      obtain ⟨hv, hrest, hlo, hhi⟩ := h
      exact ⟨_, .three (by omega) (by omega) (by omega) (by omega), hrest⟩
    split at h
    · rw [continuation_narrow_eq_some_iff (by decide) (by decide)] at h
      simp only [UInt8.reduceToNat] at h
      obtain ⟨hv, hrest, hlo, hhi⟩ := h
      exact ⟨_, .four (by omega) (by omega) (by omega), hrest⟩
    · cases h
  · rintro ⟨more, hform, rfl⟩
    cases hform with
    | one hv hb =>
      rw [if_pos (by omega), hb]
      rfl
    | two hlo hhi hb =>
      rw [if_neg (by omega), if_neg (by omega), if_pos (by omega), continuation_eq_some_iff]
      exact ⟨by omega, rfl⟩
    | three hlo hhi hsurrogate hb =>
      rw [if_neg (by omega), if_neg (by omega), if_neg (by omega), if_pos (by omega),
        continuation_narrow_eq_some_iff (by decide) (by decide)]
      simp only [UInt8.reduceToNat, true_and]
      exact ⟨by omega, by omega, by omega⟩
    | four hlo hhi hb =>
      rw [if_neg (by omega), if_neg (by omega), if_neg (by omega), if_neg (by omega), if_pos (by omega),
        continuation_narrow_eq_some_iff (by decide) (by decide)]
      simp only [UInt8.reduceToNat, true_and]
      exact ⟨by omega, by omega, by omega⟩

/-- The bytes of a character, by how many there are. -/
theorem utf8EncodeChar_eq (c : Char) : utf8EncodeChar c =
    if c.toNat ≤ 0x7f then [UInt8.ofNat c.toNat]
    else if c.toNat ≤ 0x7ff then UInt8.ofNat (c.toNat / 64 % 32 + 192) :: trail c.toNat 1
    else if c.toNat ≤ 0xffff then UInt8.ofNat (c.toNat / 4096 % 16 + 224) :: trail c.toNat 2
    else UInt8.ofNat (c.toNat / 262144 % 8 + 240) :: trail c.toNat 3 := by
  simp [utf8EncodeChar, trail]

/-- **A character is written in the form of its code point.** -/
theorem form_toNat (c : Char) : ∃ b more, utf8EncodeChar c = b :: more ∧ Form c.toNat b more := by
  have hvalid : c.toNat < 0xd800 ∨ 0xdfff < c.toNat ∧ c.toNat < 0x110000 := c.valid
  rw [utf8EncodeChar_eq]
  split
  · exact ⟨_, _, rfl, .one (by omega) (by rw [UInt8.toNat_ofNat']; omega)⟩
  split
  · exact ⟨_, _, rfl, .two (by omega) (by omega) (by rw [UInt8.toNat_ofNat']; omega)⟩
  split
  · exact ⟨_, _, rfl, .three (by omega) (by omega) (by omega) (by rw [UInt8.toNat_ofNat']; omega)⟩
  · exact ⟨_, _, rfl, .four (by omega) (by omega) (by rw [UInt8.toNat_ofNat']; omega)⟩

namespace Form

variable {b' : UInt8} {more more' : List UInt8}

theorem isValidChar (h : Form v b more) : v.isValidChar := by
  cases h <;> (unfold Nat.isValidChar; omega)

theorem unique (h : Form v b more) (h' : Form v b' more') : b :: more = b' :: more' := by
  cases h <;> cases h' <;> first
    | exact congrArg (· :: _) (UInt8.toNat_inj.1 (by omega))
    | omega

/-- **What has the form of a code point is a character written.** -/
theorem exists_char (h : Form v b more) : ∃ c : Char, c.toNat = v ∧ utf8EncodeChar c = b :: more := by
  obtain ⟨b', more', hbytes, hform⟩ := form_toNat (Char.ofNatAux v h.isValidChar)
  exact ⟨_, rfl, hbytes.trans (hform.unique h)⟩

end Form

/-! ## A text -/

theorem encode_ofList (chars : List Char) : encode (String.ofList chars) = chars.flatMap utf8EncodeChar := by
  show chars.utf8Encode.data.toList = _
  simp [List.utf8Encode]

theorem codePoint_of_char (c : Char) (after : List UInt8) :
    ∃ b rest, utf8EncodeChar c ++ after = b :: rest ∧ codePoint b rest = (some c.toNat, after) := by
  obtain ⟨b, more, hbytes, hform⟩ := form_toNat c
  exact ⟨b, more ++ after, by rw [hbytes]; rfl, codePoint_eq_some_iff.2 ⟨more, hform, rfl⟩⟩

/-- Nothing that was written is ill-formed. -/
theorem illFormedFrom_flatMap : ∀ (chars : List Char) (start : Nat),
    illFormedFrom start (chars.flatMap utf8EncodeChar) = none
  | [], start         => by rw [List.flatMap_nil, illFormedFrom]
  | c :: chars, start => by
    obtain ⟨b, rest, hbytes, hpoint⟩ := codePoint_of_char c (chars.flatMap utf8EncodeChar)
    rw [List.flatMap_cons, hbytes, illFormedFrom, hpoint]
    exact illFormedFrom_flatMap chars _

theorem decodeLossy_cons (h : codePoint b rest = (some v, after)) :
    decodeLossy (b :: rest) = Char.ofNat v :: decodeLossy after := by
  rw [decodeLossy, decodeParts, h]
  rfl

/-- **What was written is read.** -/
theorem decodeLossy_flatMap : ∀ chars : List Char, decodeLossy (chars.flatMap utf8EncodeChar) = chars
  | []         => by rw [List.flatMap_nil, decodeLossy, decodeParts, List.map_nil]
  | c :: chars => by
    obtain ⟨b, rest, hbytes, hpoint⟩ := codePoint_of_char c (chars.flatMap utf8EncodeChar)
    rw [List.flatMap_cons, hbytes, decodeLossy_cons hpoint, Char.ofNat_toNat, decodeLossy_flatMap chars]

/-- **Bytes with no ill-formed part were written.** -/
theorem flatMap_decodeLossy {bytes : List UInt8} {start : Nat} (h : illFormedFrom start bytes = none) :
    (decodeLossy bytes).flatMap utf8EncodeChar = bytes := by
  fun_induction illFormedFrom start bytes with
  | case1 start => rw [decodeLossy, decodeParts]; rfl
  | case2 => cases h
  | case3 start b rest after length hsome ih =>
    obtain ⟨v, hv⟩ : ∃ v, (codePoint b rest).1 = some v := Option.ne_none_iff_exists'.1 (by simpa using hsome)
    have hpoint : codePoint b rest = (some v, after) := Prod.ext hv rfl
    obtain ⟨more, hform, hrest⟩ := codePoint_eq_some_iff.1 hpoint
    obtain ⟨c, rfl, hbytes⟩ := hform.exists_char
    rw [decodeLossy_cons hpoint, Char.ofNat_toNat, List.flatMap_cons, ih h, hbytes, hrest, List.cons_append]

/-- **Strict reading takes a byte sequence just when it is a text written, and gives this text.** -/
theorem decode_eq_ok_iff {bytes : List UInt8} {chars : List Char} :
    decode bytes = .ok chars ↔ bytes = encode (String.ofList chars) := by
  unfold decode
  rw [encode_ofList]
  constructor
  · intro h
    split at h
    · rename_i hnone
      cases h
      exact (flatMap_decodeLossy hnone).symm
    · cases h
  · rintro rfl
    rw [illFormedFrom_flatMap, decodeLossy_flatMap]

end Text
end ReactSite
