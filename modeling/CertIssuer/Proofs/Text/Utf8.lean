import CertIssuer.Text.Utf8
import Mathlib.Tactic.SplitIfs

/-!
# Characters and their bytes

The bytes of a text are those of its characters in order. A byte below 128 stands for the ASCII
character with its number and occurs in no other character, and a lossy reading invents no ASCII
character either. The bytes of a character read as that character again.
-/

namespace CertIssuer.Text

theorem toNat_charOfNat {n : Nat} (h : n.isValidChar) : (Char.ofNat n).toNat = n := by
  unfold Char.ofNat
  rw [dif_pos h]
  rfl

/-! ### Writing -/

theorem toBytes_ofList (cs : List Char) :
    toBytes (String.ofList cs) = cs.flatMap String.utf8EncodeChar := by
  show (cs.flatMap String.utf8EncodeChar).toByteArray.data.toList = _
  simp

theorem utf8EncodeChar_ascii {c : Char} (h : c.toNat < 128) :
    String.utf8EncodeChar c = [c.toNat.toUInt8] := by
  have hle : c.val.toNat ≤ 127 := Nat.le_of_lt_succ h
  simp only [String.utf8EncodeChar, if_pos hle]
  rfl

theorem toBytes_ascii {cs : List Char} (h : ∀ c ∈ cs, c.toNat < 128) :
    toBytes (String.ofList cs) = cs.map (·.toNat.toUInt8) := by
  rw [toBytes_ofList]
  induction cs with
  | nil => rfl
  | cons c cs ih =>
    obtain ⟨hc, hcs⟩ := List.forall_mem_cons.mp h
    rw [List.flatMap_cons, List.map_cons, utf8EncodeChar_ascii hc, ih hcs]
    rfl

/-- The bytes of ASCII characters are their numbers. -/
theorem toBytes_ofList_ascii {bytes : Bytes} (h : ∀ b ∈ bytes, b.toNat < 128) :
    toBytes (String.ofList (bytes.map fun b => Char.ofNat b.toNat)) = bytes := by
  rw [toBytes_ofList]
  induction bytes with
  | nil => rfl
  | cons b rest ih =>
    obtain ⟨hb, hrest⟩ := List.forall_mem_cons.mp h
    have hchar : (Char.ofNat b.toNat).toNat = b.toNat :=
      toNat_charOfNat (.inl (by omega))
    rw [List.map_cons, List.flatMap_cons, ih hrest, utf8EncodeChar_ascii (by omega), hchar]
    simp

/-- The byte of an ASCII character is no part of another character. -/
theorem eq_of_mem_utf8EncodeChar {b : UInt8} {c : Char} (h : b ∈ String.utf8EncodeChar c)
    (hb : b.toNat < 128) : c.toNat = b.toNat := by
  by_cases hc : c.toNat < 128
  · rw [utf8EncodeChar_ascii hc, List.mem_singleton] at h
    rw [h]
    simp
    omega
  · have hlead : ¬ c.val.toNat ≤ 127 := fun hle => hc (Nat.lt_succ_of_le hle)
    simp only [String.utf8EncodeChar, if_neg hlead] at h
    exfalso
    split_ifs at h <;> simp only [List.mem_cons, List.not_mem_nil, or_false] at h <;>
      rcases h with rfl | rfl | rfl | rfl <;> simp at hb <;> omega

/-- An ASCII byte of a text is the number of a character in it. -/
theorem exists_of_mem_toBytes {s : String} {b : UInt8} (h : b ∈ toBytes s) (hb : b.toNat < 128) :
    ∃ c ∈ s.toList, c.toNat = b.toNat := by
  rw [← String.ofList_toList (s := s), toBytes_ofList] at h
  obtain ⟨c, hc, hmem⟩ := List.mem_flatMap.mp h
  exact ⟨c, hc, eq_of_mem_utf8EncodeChar hmem hb⟩

/-! ### Lossy reading -/

namespace Unfinished

/-- Whatever byte comes next, the character in the making is beyond ASCII. -/
structure BeyondAscii (p : Unfinished) : Prop where
  low : 0x80 ≤ p.low
  bits : 2 ≤ p.bits * 64 + (p.low - 0x80)
  last : p.owed ≤ 1 → 2 ≤ p.bits

end Unfinished

theorem firstByte_beyondAscii {b : UInt8} {p : Unfinished} (h : firstByte b = .inr p) :
    p.BeyondAscii := by
  unfold firstByte at h
  dsimp only at h
  split_ifs at h <;> obtain rfl := Sum.inr.inj h <;> constructor <;> dsimp only <;> omega

theorem firstByte_inl {b : UInt8} {c : Char} (h : firstByte b = .inl c) :
    c = Char.ofNat b.toNat ∧ b.toNat < 128 ∨ c = replacement := by
  unfold firstByte at h
  dsimp only at h
  split_ifs at h with hb <;> obtain rfl := Sum.inl.inj h
  · exact .inl ⟨rfl, hb⟩
  · exact .inr rfl

/-- A character of several bytes is beyond ASCII, or NUL where its number is out of range. -/
theorem toNat_charOfNat_beyond {n : Nat} (h : 128 ≤ n) :
    (Char.ofNat n).toNat = 0 ∨ 128 ≤ (Char.ofNat n).toNat := by
  by_cases hn : n.isValidChar
  · rw [toNat_charOfNat hn]
    exact .inr h
  · unfold Char.ofNat
    rw [dif_neg hn]
    exact .inl rfl

namespace Unfinished.BeyondAscii

variable {p : Unfinished} {b : UInt8} (h : p.BeyondAscii)

include h

theorem next (hlow : p.low ≤ b.toNat) : BeyondAscii ⟨p.bits * 64 + (b.toNat - 0x80), p.owed - 1, 0x80, 0xBF⟩ := by
  obtain ⟨hstart, hbits, -⟩ := h
  have hnext : 2 ≤ p.bits * 64 + (b.toNat - 0x80) := by omega
  exact ⟨Nat.le_refl _, by dsimp only; omega, fun _ => hnext⟩

theorem finished (howed : p.owed ≤ 1) :
    (Char.ofNat (p.bits * 64 + (b.toNat - 0x80))).toNat = 0 ∨
      128 ≤ (Char.ofNat (p.bits * 64 + (b.toNat - 0x80))).toNat := by
  have hbits : 2 ≤ p.bits := h.last howed
  exact toNat_charOfNat_beyond (by omega)

end Unfinished.BeyondAscii

theorem beyondAscii_none : ∀ p ∈ (none : Option Unfinished), p.BeyondAscii :=
  fun p hp => absurd hp (Option.not_mem_none p)

/-- An ASCII character of a lossy reading was read from its byte. -/
theorem exists_of_mem_lossyFrom {c : Char} (hpos : 0 < c.toNat) (hascii : c.toNat < 128)
    {bytes : Bytes} {pending : Option Unfinished} (hpending : ∀ p ∈ pending, p.BeyondAscii)
    (h : c ∈ lossyFrom pending bytes) : ∃ b ∈ bytes, b.toNat = c.toNat := by
  have hlost : c ≠ replacement := by
    rintro rfl
    exact absurd hascii (by decide)
  induction bytes generalizing pending with
  | nil =>
    cases pending with
    | none => exact absurd h List.not_mem_nil
    | some p => exact absurd (List.mem_singleton.mp h) hlost
  | cons b rest ih =>
    have hlater {next : Option Unfinished} (hnext : ∀ p ∈ next, p.BeyondAscii)
        (hc : c ∈ lossyFrom next rest) :
        ∃ b' ∈ b :: rest, b'.toNat = c.toNat := by
      obtain ⟨b', hb', hread⟩ := ih hnext hc
      exact ⟨b', List.mem_cons_of_mem b hb', hread⟩
    have hfresh (hc : c ∈ lossyFrom none (b :: rest)) :
        ∃ b' ∈ b :: rest, b'.toNat = c.toNat := by
      rw [lossyFrom] at hc
      cases hfirst : firstByte b with
      | inl x =>
        rw [hfirst] at hc
        rcases List.mem_cons.mp hc with rfl | hc
        · obtain ⟨heq, hb⟩ | hrepl := firstByte_inl hfirst
          · refine ⟨b, List.mem_cons_self, ?_⟩
            rw [heq, toNat_charOfNat (.inl (by omega))]
          · exact absurd hrepl hlost
        · exact hlater beyondAscii_none hc
      | inr q =>
        rw [hfirst] at hc
        refine hlater ?_ hc
        intro p hp
        obtain rfl := Option.some.inj hp
        exact firstByte_beyondAscii hfirst
    cases pending with
    | none => exact hfresh h
    | some p =>
      have hp : p.BeyondAscii := hpending p rfl
      rw [lossyFrom] at h
      split_ifs at h with hin howed
      · rcases List.mem_cons.mp h with heq | hc
        · have hchar := hp.finished (b := b) howed
          rw [← heq] at hchar
          omega
        · exact hlater beyondAscii_none hc
      · refine hlater ?_ h
        intro q hq
        obtain rfl := Option.some.inj hq
        exact hp.next hin.1
      · rcases List.mem_cons.mp h with hrepl | hc
        · exact absurd hrepl hlost
        · refine hfresh ?_
          rw [lossyFrom]
          exact hc

theorem exists_of_mem_toTextLossy {bytes : Bytes} {c : Char} (hpos : 0 < c.toNat)
    (hascii : c.toNat < 128) (h : c ∈ (toTextLossy bytes).toList) :
    ∃ b ∈ bytes, b.toNat = c.toNat := by
  rw [toTextLossy, String.toList_ofList] at h
  exact exists_of_mem_lossyFrom hpos hascii beyondAscii_none h

/-! ### Reading what was written -/

section Reading

variable {b : UInt8} {p : Unfinished} {rest : Bytes}

theorem firstByte_two (h : 0xC2 ≤ b.toNat ∧ b.toNat ≤ 0xDF) :
    firstByte b = .inr ⟨b.toNat - 0xC0, 1, 0x80, 0xBF⟩ := by
  unfold firstByte
  rw [if_neg (by omega), if_pos h]

theorem firstByte_three (h : 0xE0 ≤ b.toNat ∧ b.toNat ≤ 0xEF) :
    firstByte b = .inr ⟨b.toNat - 0xE0, 2, if b.toNat = 0xE0 then 0xA0 else 0x80,
      if b.toNat = 0xED then 0x9F else 0xBF⟩ := by
  unfold firstByte
  dsimp only
  split_ifs <;> first | omega | simp_all

theorem firstByte_four (h : 0xF0 ≤ b.toNat ∧ b.toNat ≤ 0xF4) :
    firstByte b = .inr ⟨b.toNat - 0xF0, 3, if b.toNat = 0xF0 then 0x90 else 0x80,
      if b.toNat = 0xF4 then 0x8F else 0xBF⟩ := by
  unfold firstByte
  dsimp only
  split_ifs <;> first | omega | simp_all

theorem lossyFrom_first (h : firstByte b = .inr p) :
    lossyFrom none (b :: rest) = lossyFrom (some p) rest := by
  rw [lossyFrom, h]

theorem lossyFrom_next (h : p.low ≤ b.toNat ∧ b.toNat ≤ p.high) (howed : 1 < p.owed) :
    lossyFrom (some p) (b :: rest) =
      lossyFrom (some ⟨p.bits * 64 + (b.toNat - 0x80), p.owed - 1, 0x80, 0xBF⟩) rest := by
  rw [lossyFrom, if_pos h, if_neg (Nat.not_le.mpr howed)]

theorem lossyFrom_last (h : p.low ≤ b.toNat ∧ b.toNat ≤ p.high) (howed : p.owed ≤ 1) :
    lossyFrom (some p) (b :: rest) =
      Char.ofNat (p.bits * 64 + (b.toNat - 0x80)) :: lossyFrom none rest := by
  rw [lossyFrom, if_pos h, if_pos howed]

/-- ASCII bytes read as the characters with their numbers. -/
theorem lossyFrom_ascii {bytes : Bytes} (h : ∀ b ∈ bytes, b.toNat < 128) :
    lossyFrom none bytes = bytes.map fun b => Char.ofNat b.toNat := by
  induction bytes with
  | nil => rfl
  | cons b rest ih =>
    obtain ⟨hb, hrest⟩ := List.forall_mem_cons.mp h
    have hfirst : firstByte b = .inl (Char.ofNat b.toNat) := if_pos hb
    rw [lossyFrom, hfirst, List.map_cons]
    exact congrArg _ (ih hrest)

theorem toNat_byte {n : Nat} (h : n < 256) : (UInt8.ofNat n).toNat = n :=
  UInt8.toNat_ofNat_of_lt' h

/-- The bytes of a character read as that character. -/
theorem lossyFrom_utf8EncodeChar (c : Char) (rest : Bytes) :
    lossyFrom none (String.utf8EncodeChar c ++ rest) = c :: lossyFrom none rest := by
  have hvalid : c.toNat < 55296 ∨ 57343 < c.toNat ∧ c.toNat < 1114112 := c.valid
  have hchar {n : Nat} (h : n = c.toNat) : Char.ofNat n = c := h ▸ Char.ofNat_toNat c
  -- one case for each number of bytes; the bounds of the second byte leave out what is no character
  unfold String.utf8EncodeChar
  have hv : c.val.toNat = c.toNat := rfl
  dsimp only
  rw [hv]
  split_ifs with h₁ h₂ h₃
  · have hb₁ := toNat_byte (n := c.toNat) (by omega)
    have hfirst : firstByte (UInt8.ofNat c.toNat) = .inl c := by
      unfold firstByte
      rw [if_pos (by omega), hb₁, Char.ofNat_toNat]
    rw [List.singleton_append, lossyFrom, hfirst]
  · have hb₁ := toNat_byte (n := c.toNat / 64 % 0x20 + 0xc0) (by omega)
    have hb₂ := toNat_byte (n := c.toNat % 0x40 + 0x80) (by omega)
    simp only [List.cons_append, List.nil_append]
    rw [lossyFrom_first (firstByte_two (by omega)),
      lossyFrom_last (by dsimp only; omega) (Nat.le_refl _), hchar (by dsimp only; omega)]
  · have hb₁ := toNat_byte (n := c.toNat / 4096 % 0x10 + 0xe0) (by omega)
    have hb₂ := toNat_byte (n := c.toNat / 64 % 0x40 + 0x80) (by omega)
    have hb₃ := toNat_byte (n := c.toNat % 0x40 + 0x80) (by omega)
    simp only [List.cons_append, List.nil_append]
    rw [lossyFrom_first (firstByte_three (by omega)),
      lossyFrom_next (by dsimp only; split_ifs <;> omega) (by dsimp only; omega),
      lossyFrom_last (by dsimp only; omega) (Nat.le_refl _), hchar (by dsimp only; omega)]
  · have hb₁ := toNat_byte (n := c.toNat / 262144 % 0x08 + 0xf0) (by omega)
    have hb₂ := toNat_byte (n := c.toNat / 4096 % 0x40 + 0x80) (by omega)
    have hb₃ := toNat_byte (n := c.toNat / 64 % 0x40 + 0x80) (by omega)
    have hb₄ := toNat_byte (n := c.toNat % 0x40 + 0x80) (by omega)
    simp only [List.cons_append, List.nil_append]
    rw [lossyFrom_first (firstByte_four (by omega)),
      lossyFrom_next (by dsimp only; split_ifs <;> omega) (by dsimp only; omega),
      lossyFrom_next (by dsimp only; omega) (by dsimp only; omega),
      lossyFrom_last (by dsimp only; omega) (Nat.le_refl _), hchar (by dsimp only; omega)]

end Reading

end CertIssuer.Text
