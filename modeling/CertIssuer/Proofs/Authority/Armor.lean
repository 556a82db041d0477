import CertIssuer.Proofs.Authority.Complete

/-!
# Armor

A bare ASCII text is armored in lines of 64 characters, of which only the last may be shorter, and
nothing of it is lost but its white space. An armored text, or one that was begun already, stays as
it is when it is armored again (`armor_wraps`).
-/

namespace CertIssuer

namespace Authority.Pem

/-! ### Pieces -/

section Pieces

variable {fuel : Nat} {bytes : Text.Bytes}

theorem pieces_nil (fuel : Nat) : pieces fuel [] = [] := by
  cases fuel <;> rfl

theorem pieces_of_ne (h : bytes ≠ []) (fuel : Nat) :
    pieces (fuel + 1) bytes = bytes.take 64 :: pieces fuel (bytes.drop 64) := by
  rw [pieces, if_neg (by simpa using h)]

theorem flatten_pieces (h : bytes.length ≤ fuel) : (pieces fuel bytes).flatten = bytes := by
  induction fuel generalizing bytes with
  | zero =>
    rw [List.length_eq_zero_iff.mp (Nat.le_zero.mp h)]
    rfl
  | succ fuel ih =>
    by_cases hbytes : bytes = []
    · rw [hbytes, pieces_nil, List.flatten_nil]
    · have hpos := List.length_pos_iff.mpr hbytes
      have hrest : (bytes.drop 64).length ≤ fuel := by
        rw [List.length_drop]
        omega
      rw [pieces_of_ne hbytes, List.flatten_cons, ih hrest, List.take_append_drop]

theorem length_of_mem_pieces {piece : Text.Bytes} (h : piece ∈ pieces fuel bytes) :
    1 ≤ piece.length ∧ piece.length ≤ 64 := by
  induction fuel generalizing bytes with
  | zero => cases h
  | succ fuel ih =>
    by_cases hbytes : bytes = []
    · rw [hbytes, pieces_nil] at h
      cases h
    · have hpos := List.length_pos_iff.mpr hbytes
      rw [pieces_of_ne hbytes] at h
      rcases List.mem_cons.mp h with rfl | h
      · rw [List.length_take]
        omega
      · exact ih h

/-- Where another piece follows, a piece is full. -/
theorem length_of_mem_dropLast_pieces {piece : Text.Bytes}
    (h : piece ∈ (pieces fuel bytes).dropLast) : piece.length = 64 := by
  induction fuel generalizing bytes with
  | zero => cases h
  | succ fuel ih =>
    by_cases hbytes : bytes = []
    · rw [hbytes, pieces_nil] at h
      cases h
    · rw [pieces_of_ne hbytes] at h
      by_cases hrest : pieces fuel (bytes.drop 64) = []
      · rw [hrest] at h
        cases h
      · rw [List.dropLast_cons_of_ne_nil hrest] at h
        rcases List.mem_cons.mp h with rfl | h
        · have hmore : bytes.drop 64 ≠ [] := by
            intro hnone
            rw [hnone, pieces_nil] at hrest
            exact hrest rfl
          have hlong := List.length_pos_iff.mpr hmore
          rw [List.length_drop] at hlong
          rw [List.length_take]
          omega
        · exact ih h

end Pieces

/-! ### Lines -/

/-- The lines of the body when a text is armored. -/
def armoredLines (c : String) : List String :=
  bodyLines (String.ofList ((Text.trimChars c.toList).filter (!Text.isBlank ·)))

theorem armor_eq_join {c : String} (h : ¬ begin <+: Text.trimChars c.toList) :
    armor c = String.join (([String.ofList begin] ++ armoredLines c ++ [String.ofList close]).map
      (· ++ "\n")) := by
  have hbare : ¬ begin.isPrefixOf (Text.trimChars c.toList) = true :=
    mt List.isPrefixOf_iff_prefix.mp h
  rw [armor]
  exact if_neg hbare

section Ascii

variable {cs : List Char} (h : ∀ c ∈ cs, c.toNat < 128)

include h

theorem ascii_of_mem_toBytes : ∀ b ∈ Text.toBytes (String.ofList cs), b.toNat < 128 := by
  intro b hb
  rw [Text.toBytes_ascii h] at hb
  obtain ⟨c, hc, rfl⟩ := List.mem_map.mp hb
  have hc := h c hc
  show c.toNat.toUInt8.toNat < 128
  rw [Text.toNat_byte (by omega)]
  exact hc

/-- The lines of an ASCII text are its pieces, character by character. -/
theorem bodyLines_ascii : bodyLines (String.ofList cs) =
    (pieces (Text.toBytes (String.ofList cs)).length (Text.toBytes (String.ofList cs))).map
      fun piece => String.ofList (piece.map fun b => Char.ofNat b.toNat) := by
  refine List.map_congr_left fun piece hpiece => congrArg String.ofList ?_
  exact Text.lossyFrom_ascii fun b hb => ascii_of_mem_toBytes h b (mem_of_mem_pieces hpiece hb)

theorem length_of_mem_dropLast_bodyLines {line : String}
    (hline : line ∈ (bodyLines (String.ofList cs)).dropLast) : line.length = 64 := by
  rw [bodyLines_ascii h, ← List.map_dropLast] at hline
  obtain ⟨piece, hpiece, rfl⟩ := List.mem_map.mp hline
  rw [String.length_ofList, List.length_map]
  exact length_of_mem_dropLast_pieces hpiece

theorem length_of_mem_bodyLines {line : String} (hline : line ∈ bodyLines (String.ofList cs)) :
    1 ≤ line.length ∧ line.length ≤ 64 := by
  rw [bodyLines_ascii h] at hline
  obtain ⟨piece, hpiece, rfl⟩ := List.mem_map.mp hline
  rw [String.length_ofList, List.length_map]
  exact length_of_mem_pieces hpiece

theorem join_bodyLines : (String.join (bodyLines (String.ofList cs))).toList = cs := by
  have hchar : ∀ c ∈ cs, Char.ofNat (c.toNat.toUInt8).toNat = c := by
    intro c hc
    have hc := h c hc
    rw [Text.toNat_byte (by omega), Char.ofNat_toNat]
  calc
    (String.join (bodyLines (String.ofList cs))).toList
        = ((pieces (Text.toBytes (String.ofList cs)).length
            (Text.toBytes (String.ofList cs))).flatten).map fun b => Char.ofNat b.toNat := by
      rw [bodyLines_ascii h, List.map_flatten, ← List.flatMap_def]
      simp [List.flatMap_map]
    _ = (cs.map (·.toNat.toUInt8)).map fun b => Char.ofNat b.toNat := by
      rw [flatten_pieces (Nat.le_refl _), Text.toBytes_ascii h]
    _ = cs := by
      rw [List.map_map]
      exact (List.map_congr_left hchar).trans (List.map_id cs)

end Ascii

theorem armoredLines_eq_nil_iff {c : String}
    (h : ∀ x ∈ (Text.trimChars c.toList).filter (!Text.isBlank ·), x.toNat < 128) :
    armoredLines c = [] ↔ Text.isBlankText c = true := by
  have hblank : Text.isBlankText c = true ↔
      (Text.trimChars c.toList).filter (!Text.isBlank ·) = [] := by
    rw [Text.filter_trimChars, List.filter_eq_nil_iff, Text.isBlankText, List.all_eq_true]
    simp
  rw [hblank]
  constructor
  · intro hnone
    rw [← join_bodyLines h, ← armoredLines, hnone]
    rfl
  · intro hnone
    rw [armoredLines, hnone]
    rfl

/-! ### Armoring again -/

/-- What an armored text is before its last line end: it has its BEGIN marker in front, and trimming
leaves it as it is. -/
theorem exists_armored (c : String) : ∃ cs, (armor c).toList = cs ++ ['\n'] ∧ begin <+: cs ∧
    Text.trimEnd cs = cs := by
  by_cases hbegin : begin <+: Text.trimChars c.toList
  · refine ⟨Text.trimChars c.toList, toList_armor_begun hbegin, hbegin, ?_⟩
    rw [Text.trimChars, Text.trimEnd_eq, Text.trimEnd_eq, List.rdropWhile_idempotent]
  · refine ⟨begin ++ ('\n' :: bareLines c) ++ close, toList_armor hbegin, ?_, ?_⟩
    · rw [List.append_assoc]
      exact List.prefix_append _ _
    · have hclose : close = close.dropLast ++ ['-'] := by decide
      rw [hclose, ← List.append_assoc, Text.trimEnd_eq]
      exact List.rdropWhile_concat_neg _ _ _ (by decide)

theorem trimChars_armored {cs : List Char} (hbegin : begin <+: cs) (htrimmed : Text.trimEnd cs = cs) :
    Text.trimChars (cs ++ ['\n']) = cs := by
  obtain ⟨rest, rfl⟩ := hbegin
  have hdash : begin = '-' :: begin.tail := by decide
  have hstart : Text.trimStart (begin ++ rest ++ ['\n']) = begin ++ rest ++ ['\n'] := by
    rw [hdash, Text.trimStart]
    exact List.dropWhile_cons_of_neg (by decide)
  rw [Text.trimChars, hstart, Text.trimEnd_eq, List.rdropWhile_concat_pos _ _ _ (by decide),
    ← Text.trimEnd_eq, htrimmed]

theorem armor_armor (c : String) : armor (armor c) = armor c := by
  obtain ⟨cs, hcs, hbegin, htrimmed⟩ := exists_armored c
  have htrim : Text.trimChars (armor c).toList = cs := by
    rw [hcs]
    exact trimChars_armored hbegin htrimmed
  rw [← String.toList_inj, toList_armor_begun (by rwa [htrim]), htrim, hcs]

/-- A bare ASCII text stands between the two markers in lines of 64 characters, but for the last one,
which is not longer; there is none exactly when the text is blank, and together they are the text
without its white space. Whatever was armored, armoring it again changes nothing. -/
theorem armor_wraps (c : String) :
    (¬ begin <+: Text.trimChars c.toList → (∀ x ∈ Text.trimChars c.toList, x.toNat < 128) →
      ∃ lines : List String,
        armor c = String.join
          (([String.ofList begin] ++ lines ++ [String.ofList close]).map (· ++ "\n")) ∧
        (∀ line ∈ lines.dropLast, line.length = 64) ∧
        (∀ line ∈ lines.getLast?, 1 ≤ line.length ∧ line.length ≤ 64) ∧
        (lines = [] ↔ Text.isBlankText c = true) ∧
        (String.join lines).toList = c.toList.filter (!Text.isBlank ·)) ∧
    armor (armor c) = armor c := by
  refine ⟨fun hbare hascii => ⟨armoredLines c, armor_eq_join hbare, ?_⟩, armor_armor c⟩
  have hkept : ∀ x ∈ (Text.trimChars c.toList).filter (!Text.isBlank ·), x.toNat < 128 :=
    fun x hx => hascii x (List.mem_filter.mp hx).1
  refine ⟨fun line => length_of_mem_dropLast_bodyLines hkept,
    fun line hline => length_of_mem_bodyLines hkept (List.mem_of_getLast? hline),
    armoredLines_eq_nil_iff hkept, ?_⟩
  rw [armoredLines, join_bodyLines hkept, Text.filter_trimChars]

/-- White space around a text and in it is left out of its lines. -/
theorem armor_wraps_loose : ∃ lines : List String,
    armor " TEVB\r\nRg== \n" = String.join
      (([String.ofList begin] ++ lines ++ [String.ofList close]).map (· ++ "\n")) ∧
    (∀ line ∈ lines.dropLast, line.length = 64) ∧
    (∀ line ∈ lines.getLast?, 1 ≤ line.length ∧ line.length ≤ 64) ∧
    lines ≠ [] ∧ (String.join lines).toList = "TEVBRg==".toList := by
  have hbare : ¬ begin <+: Text.trimChars " TEVB\r\nRg== \n".toList := by decide
  have hsmall : (Text.trimChars " TEVB\r\nRg== \n".toList).all (·.toNat < 128) = true := by decide
  have hascii : ∀ x ∈ Text.trimChars " TEVB\r\nRg== \n".toList, x.toNat < 128 :=
    fun x hx => of_decide_eq_true (List.all_eq_true.mp hsmall x hx)
  obtain ⟨⟨lines, harmor, hfull, hlast, hnone, hjoin⟩, -⟩ :=
    (armor_wraps " TEVB\r\nRg== \n").imp_left fun h => h hbare hascii
  have hfilled : ¬ Text.isBlankText " TEVB\r\nRg== \n" = true := by decide
  exact ⟨lines, harmor, hfull, hlast, mt hnone.mp hfilled, hjoin.trans (by decide)⟩

end Authority.Pem

end CertIssuer
