import CertIssuer.Proofs.Text.Utf8
import CertIssuer.Text.Base64

/-!
# Base64 reads back

What is written is read back as the bytes that were written (`decode_encode`): whole groups of three
bytes one after the other, and the last group by what its padding says.
-/

namespace CertIssuer.Text.Base64

/-! ### Symbols -/

theorem symbol_ne_pad {n : Nat} (h : n < 64) : symbol n ≠ pad := by
  intro heq
  have hvalue := value?_symbol n h
  rw [heq, value?_pad] at hvalue
  cases hvalue

theorem valueAt_symbol {n : Nat} (h : n < 64) (offset : Nat) :
    valueAt offset (symbol n) = .ok n := by
  unfold valueAt
  rw [value?_symbol n h]

theorem symbol_lt : ∀ n < 64, (symbol n).toNat < 128 := by decide

/-- The bytes that are written stand in the alphabet or are padding. -/
theorem mem_encodeBytes {bytes : Bytes} {b : UInt8} (h : b ∈ encodeBytes bytes) :
    b = pad ∨ ∃ n < 64, b = symbol n := by
  have hbyte (x : UInt8) : x.toNat < 256 := x.toNat_lt
  fun_induction encodeBytes bytes with
  | case1 => exact absurd h List.not_mem_nil
  | case2 x n =>
    have := hbyte x
    simp only [List.mem_cons, List.not_mem_nil, or_false] at h
    rcases h with rfl | rfl | rfl | rfl
    · exact .inr ⟨_, by omega, rfl⟩
    · exact .inr ⟨_, by omega, rfl⟩
    · exact .inl rfl
    · exact .inl rfl
  | case3 x y n =>
    have := hbyte x
    have := hbyte y
    simp only [List.mem_cons, List.not_mem_nil, or_false] at h
    rcases h with rfl | rfl | rfl | rfl
    · exact .inr ⟨_, by omega, rfl⟩
    · exact .inr ⟨_, by omega, rfl⟩
    · exact .inr ⟨_, by omega, rfl⟩
    · exact .inl rfl
  | case4 x y z rest n ih =>
    have := hbyte x
    have := hbyte y
    have := hbyte z
    simp only [List.mem_cons] at h
    rcases h with rfl | rfl | rfl | rfl | h
    · exact .inr ⟨_, by omega, rfl⟩
    · exact .inr ⟨_, by omega, rfl⟩
    · exact .inr ⟨_, by omega, rfl⟩
    · exact .inr ⟨_, by omega, rfl⟩
    · exact ih h

theorem encodeBytes_ascii {bytes : Bytes} {b : UInt8} (h : b ∈ encodeBytes bytes) :
    b.toNat < 128 := by
  obtain rfl | ⟨n, hn, rfl⟩ := mem_encodeBytes h
  · decide
  · exact symbol_lt n hn

/-! ### Groups -/

theorem threeBytes_of_toNat (x y z : UInt8) :
    threeBytes (x.toNat * 65536 + y.toNat * 256 + z.toNat) = [x, y, z] := by
  have hx := x.toNat_lt
  have hy := y.toNat_lt
  have hz := z.toNat_lt
  simp only [threeBytes, List.cons.injEq, and_true]
  refine ⟨?_, ?_, ?_⟩ <;> apply UInt8.toNat_inj.mp <;> simp <;> omega

/-- A group of four six-bit values is the number they were cut from. -/
theorem sixBits_join {n : Nat} :
    n / 262144 * 262144 + n / 4096 % 64 * 4096 + n / 64 % 64 * 64 + n % 64 = n := by
  omega

theorem scanLast_symbol {n : Nat} (h : n < 64) {seen : LastGroup} (hseen : seen.padding = 0)
    (offset index : Nat) (rest : Bytes) :
    scanLast offset index seen (symbol n :: rest) =
      scanLast offset (index + 1)
        { seen with values := seen.values ++ [n], lastSymbol := symbol n } rest := by
  rw [scanLast, if_neg (symbol_ne_pad h), if_neg (by omega), valueAt_symbol h]
  rfl

theorem scanLast_pad {index : Nat} (h : 2 ≤ index) (offset : Nat) (seen : LastGroup)
    (rest : Bytes) :
    scanLast offset index seen (pad :: rest) =
      scanLast offset (index + 1) { seen with padding := seen.padding + 1 } rest := by
  rw [scanLast, if_pos rfl, if_neg (by omega)]

/-- The bytes of a group that is complete. -/
theorem decodeLast_of_scanLast {offset : Nat} {group : Bytes} {seen : LastGroup}
    (h : scanLast offset 0 {} group = .ok seen) (htwo : 2 ≤ seen.values.length)
    (hfour : (seen.padding + seen.values.length) % 4 = 0) :
    decodeLast offset group =
      match seen.values with
      | [a, b] =>
        if b % 16 = 0 then .ok [(a * 4 + b / 16).toUInt8]
        else .error (.invalidLastSymbol (offset + seen.values.length - 1) seen.lastSymbol)
      | [a, b, c] =>
        if c % 4 = 0 then .ok [(a * 4 + b / 16).toUInt8, (b * 16 + c / 4).toUInt8]
        else .error (.invalidLastSymbol (offset + seen.values.length - 1) seen.lastSymbol)
      | [a, b, c, d] => .ok (threeBytes (a * 262144 + b * 4096 + c * 64 + d))
      | _ => .ok [] := by
  unfold decodeLast
  rw [h]
  show (if _ then _ else _) = _
  rw [if_neg (by omega)]
  show (if _ then _ else _) = _
  rw [if_neg (by omega)]
  rfl

theorem decodeLast_one (x : UInt8) (offset : Nat) :
    decodeLast offset (encodeBytes [x]) = .ok [x] := by
  have hx := x.toNat_lt
  have hscan : scanLast offset 0 {} (encodeBytes [x]) =
      .ok ⟨[x.toNat / 4, x.toNat % 4 * 16], symbol (x.toNat % 4 * 16), 2⟩ := by
    simp only [encodeBytes]
    rw [scanLast_symbol (by omega) rfl, scanLast_symbol (by omega) rfl, scanLast_pad (by omega),
      scanLast_pad (by omega)]
    rfl
  have hbyte : (x.toNat / 4 * 4 + x.toNat % 4 * 16 / 16).toUInt8 = x := by
    apply UInt8.toNat_inj.mp
    simp
    omega
  rw [decodeLast_of_scanLast hscan (by simp) (by simp)]
  dsimp only
  rw [if_pos (by omega), hbyte]

theorem decodeLast_two (x y : UInt8) (offset : Nat) :
    decodeLast offset (encodeBytes [x, y]) = .ok [x, y] := by
  have hx := x.toNat_lt
  have hy := y.toNat_lt
  obtain ⟨n, hn⟩ : ∃ n, n = x.toNat * 256 + y.toNat := ⟨_, rfl⟩
  have hscan : scanLast offset 0 {} (encodeBytes [x, y]) =
      .ok ⟨[n / 1024, n / 16 % 64, n % 16 * 4], symbol (n % 16 * 4), 1⟩ := by
    simp only [encodeBytes, ← hn]
    rw [scanLast_symbol (by omega) rfl, scanLast_symbol (by omega) rfl,
      scanLast_symbol (by omega) rfl, scanLast_pad (by omega)]
    rfl
  have hfirst : (n / 1024 * 4 + n / 16 % 64 / 16).toUInt8 = x := by
    apply UInt8.toNat_inj.mp
    simp
    omega
  have hsecond : (n / 16 % 64 * 16 + n % 16 * 4 / 4).toUInt8 = y := by
    apply UInt8.toNat_inj.mp
    simp
    omega
  rw [decodeLast_of_scanLast hscan (by simp) (by simp)]
  dsimp only
  rw [if_pos (by omega), hfirst, hsecond]

theorem decodeLast_three (x y z : UInt8) (offset : Nat) :
    decodeLast offset (encodeBytes [x, y, z]) = .ok [x, y, z] := by
  have hx := x.toNat_lt
  have hy := y.toNat_lt
  have hz := z.toNat_lt
  obtain ⟨n, hn⟩ : ∃ n, n = x.toNat * 65536 + y.toNat * 256 + z.toNat := ⟨_, rfl⟩
  have hscan : scanLast offset 0 {} (encodeBytes [x, y, z]) =
      .ok ⟨[n / 262144, n / 4096 % 64, n / 64 % 64, n % 64], symbol (n % 64), 0⟩ := by
    simp only [encodeBytes, ← hn]
    rw [scanLast_symbol (by omega) rfl, scanLast_symbol (by omega) rfl,
      scanLast_symbol (by omega) rfl, scanLast_symbol (by omega) rfl]
    rfl
  rw [decodeLast_of_scanLast hscan (by simp) (by simp)]
  dsimp only
  rw [sixBits_join, hn, threeBytes_of_toNat]

theorem decodeGroups_encodeBytes (x y z : UInt8) {rest tail : Bytes} {offset : Nat}
    (h : decodeGroups (offset + 4) (encodeBytes rest) = .ok tail) :
    decodeGroups offset (encodeBytes (x :: y :: z :: rest)) = .ok (x :: y :: z :: tail) := by
  have hx := x.toNat_lt
  have hy := y.toNat_lt
  have hz := z.toNat_lt
  obtain ⟨n, hn⟩ : ∃ n, n = x.toNat * 65536 + y.toNat * 256 + z.toNat := ⟨_, rfl⟩
  simp only [encodeBytes, ← hn, decodeGroups]
  rw [valueAt_symbol (by omega), valueAt_symbol (by omega), valueAt_symbol (by omega),
    valueAt_symbol (by omega), h]
  show Except.ok (threeBytes _ ++ tail) = _
  rw [sixBits_join, hn, threeBytes_of_toNat]
  rfl

/-! ### Whole texts -/

/-- Bytes are whole groups of three and then at most three more, the last group. -/
theorem encodeBytes_groups (bytes : Bytes) (h : bytes ≠ []) :
    ∃ front last, bytes = front ++ last ∧
      encodeBytes bytes = encodeBytes front ++ encodeBytes last ∧
      (encodeBytes front).length % 4 = 0 ∧ (encodeBytes last).length = 4 ∧
      ∀ offset, decodeGroups offset (encodeBytes front) = .ok front ∧
        decodeLast offset (encodeBytes last) = .ok last := by
  fun_induction encodeBytes bytes with
  | case1 => exact absurd rfl h
  | case2 x n => exact ⟨[], [x], rfl, rfl, rfl, rfl, fun offset => ⟨rfl, decodeLast_one x offset⟩⟩
  | case3 x y n =>
    exact ⟨[], [x, y], rfl, rfl, rfl, rfl, fun offset => ⟨rfl, decodeLast_two x y offset⟩⟩
  | case4 x y z rest n ih =>
    by_cases hrest : rest = []
    · subst hrest
      exact ⟨[], [x, y, z], rfl, rfl, rfl, rfl, fun offset => ⟨rfl, decodeLast_three x y z offset⟩⟩
    · obtain ⟨front, last, rfl, hencode, hfront, hlast, hdecode⟩ := ih hrest
      refine ⟨x :: y :: z :: front, last, rfl, ?_, ?_, hlast, fun offset => ?_⟩
      · rw [hencode]
        rfl
      · simp only [encodeBytes, List.length_cons]
        omega
      · exact ⟨decodeGroups_encodeBytes x y z (hdecode (offset + 4)).1, (hdecode offset).2⟩

theorem decodeBytes_encodeBytes (bytes : Bytes) : decodeBytes (encodeBytes bytes) = .ok bytes := by
  by_cases hempty : bytes = []
  · subst hempty
    rfl
  · obtain ⟨front, last, rfl, hencode, hfront, hlast, hdecode⟩ := encodeBytes_groups bytes hempty
    rw [hencode]
    have hlength : (encodeBytes front ++ encodeBytes last).length =
        (encodeBytes front).length + 4 := by
      rw [List.length_append, hlast]
    have hbody : bodyLength (encodeBytes front ++ encodeBytes last).length =
        (encodeBytes front).length := by
      unfold bodyLength
      rw [hlength]
      split <;> omega
    dsimp only [decodeBytes]
    rw [hbody, if_neg (by omega), List.take_left, List.drop_left, (hdecode 0).1]
    dsimp only [bind, Except.bind]
    rw [(hdecode _).2]
    rfl

/-- The base64 of bytes stands for them. -/
theorem decode_encode (bytes : Bytes) : decode (encode bytes) = .ok bytes := by
  unfold decode encode
  rw [toBytes_ofList_ascii fun _ => encodeBytes_ascii, decodeBytes_encodeBytes]

end CertIssuer.Text.Base64
