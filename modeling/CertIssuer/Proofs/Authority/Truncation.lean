import CertIssuer.Proofs.Authority.Pem

/-!
# Blocks that are not ended

Splitting looks for a BEGIN marker, then for the next END marker, and goes on behind it. The places
at which it looks for a block are those outside of every block (`Outside`). A block that is begun at
such a place and not ended before another one begins takes that one with it: a complete block is
returned for itself exactly when no block is left open where it begins, and a block that is begun
again is returned as one with what follows (`own_entry_iff`).
-/

namespace CertIssuer.Authority.Pem

/-- The first place of a marker in a text from another place on. -/
structure FirstFrom (marker text : List Char) (k m : Nat) : Prop where
  le : k ≤ m
  stands : marker <+: text.drop m
  first : ∀ j, k ≤ j → j < m → ¬ marker <+: text.drop j

/-- The places of a text outside of its blocks: from the start on, one after the other as long as no
block begins, and behind the END marker of one that does. -/
inductive Outside (text : List Char) : Nat → Prop
  | start : Outside text 0
  | pass {k : Nat} : Outside text k → ¬ begin <+: text.drop k → Outside text (k + 1)
  | leave {k m : Nat} : Outside text k → begin <+: text.drop k → FirstFrom close text k m →
      Outside text (m + close.length)

/-- A block is begun at a place and has no END marker in front of another one. -/
structure Unclosed (text : List Char) (s k : Nat) : Prop where
  lt : s < k
  outside : Outside text s
  begins : begin <+: text.drop s
  unclosed : ∀ m, s ≤ m → m + close.length ≤ k → ¬ close <+: text.drop m

/-- A block is begun at a place and once more at another, and ends behind that. -/
structure BegunTwice (text : List Char) (s k : Nat) : Prop where
  lt : s < k
  outside : Outside text s
  begins : begin <+: text.drop s
  again : begin <+: text.drop k
  unclosed : ∀ m, s ≤ m → m < k → ¬ close <+: text.drop m
  ends : ∃ m, k ≤ m ∧ close <+: text.drop m

/-- A block, and the place that it is taken from. -/
structure Cut where
  place : Nat
  block : List Char
  deriving DecidableEq, Repr

/-- A block goes from a BEGIN marker outside of the others to the first END marker from there. -/
structure Taken (text : List Char) (c : Cut) : Prop where
  outside : Outside text c.place
  begins : begin <+: text.drop c.place
  ends : ∃ m, FirstFrom close text c.place m ∧
    text.drop c.place = c.block ++ text.drop (m + close.length)

/-! ### Places -/

section Places

variable {text marker : List Char} {s k m n : Nat}

theorem FirstFrom.unique (h : FirstFrom marker text k m) (h' : FirstFrom marker text k n) :
    m = n := by
  refine Nat.le_antisymm (Nat.le_of_not_lt fun hlt => ?_) (Nat.le_of_not_lt fun hlt => ?_)
  · exact h.first n h'.le hlt h'.stands
  · exact h'.first m h.le hlt h.stands

theorem drop_sub_drop (h : k ≤ m) : (text.drop k).drop (m - k) = text.drop m := by
  rw [List.drop_drop, Nat.add_sub_cancel' h]

theorem firstFrom_of_breakAt? {before found : List Char}
    (h : breakAt? marker (text.drop k) = some (before, found)) :
    FirstFrom marker text k (k + before.length) ∧ text.drop (k + before.length) = found := by
  obtain ⟨happend, hstands, hfirst⟩ := breakAt?_eq_some_iff.mp h
  have hfound : text.drop (k + before.length) = found := by
    rw [← List.drop_drop, ← happend, List.drop_left]
  refine ⟨⟨Nat.le_add_right _ _, hfound ▸ hstands, fun j hj hlt hat => ?_⟩, hfound⟩
  obtain ⟨i, rfl⟩ := Nat.exists_eq_add_of_le hj
  refine hfirst i (by omega) ?_
  rwa [List.drop_drop]

theorem exists_firstFrom (hle : k ≤ m) (h : marker <+: text.drop m) :
    ∃ n, FirstFrom marker text k n := by
  obtain ⟨tail, htail⟩ := h
  have htext : text.drop k = (text.drop k).take (m - k) ++ (marker ++ tail) := by
    rw [htail, ← drop_sub_drop hle, List.take_append_drop]
  obtain ⟨before, found, hbreak, -⟩ := exists_breakAt? marker ((text.drop k).take (m - k)) tail
  rw [← htext] at hbreak
  exact ⟨_, (firstFrom_of_breakAt? hbreak).1⟩

theorem breakAt?_of_firstFrom (h : FirstFrom marker text k m) :
    breakAt? marker (text.drop k) = some ((text.drop k).take (m - k), text.drop m) := by
  refine breakAt?_eq_some_iff.mpr ⟨?_, h.stands, fun i hi hat => ?_⟩
  · rw [← drop_sub_drop h.le, List.take_append_drop]
  · rw [List.length_take] at hi
    refine h.first (k + i) (Nat.le_add_right _ _) (by omega) ?_
    rwa [← List.drop_drop]

/-- Where no block begins, the places are passed one by one. -/
theorem Outside.passed (h : Outside text k) (hnone : ∀ j < n, ¬ begin <+: text.drop (k + j)) :
    Outside text (k + n) := by
  induction n with
  | zero => exact h
  | succ n ih =>
    have hn := ih fun j hj => hnone j (Nat.lt_succ_of_lt hj)
    exact hn.pass (hnone n (Nat.lt_succ_self n))

/-- A block that begins before a place outside of the blocks has ended there. -/
theorem Outside.ended (hk : Outside text k) (hs : Outside text s) (hlt : s < k)
    (hbegin : begin <+: text.drop s) :
    ∃ m, s ≤ m ∧ m + close.length ≤ k ∧ close <+: text.drop m := by
  induction k using Nat.strongRecOn generalizing s with
  | ind k ih =>
    cases hk with
    | start => exact absurd hlt (Nat.not_lt_zero s)
    | @pass j hj hnone =>
      have hne : s ≠ j := fun heq => hnone (heq ▸ hbegin)
      obtain ⟨m, hle, hfits, hstands⟩ := ih j (Nat.lt_succ_self j) hj hs (by omega) hbegin
      exact ⟨m, hle, by omega, hstands⟩
    | @leave j m hj hbegins hfirst =>
      have hcloses : close.length = 25 := by decide
      have hjm := hfirst.le
      by_cases hsm : s ≤ m
      · exact ⟨m, hsm, Nat.le_refl _, hfirst.stands⟩
      · -- then the block from `j` on would have ended before it did
        obtain ⟨n, hle, hfits, hstands⟩ := ih s hlt hs hj (by omega) hbegins
        exact absurd hstands (hfirst.first n hle (by omega))

/-- A place that is not outside of the blocks lies in one that was begun before it. -/
theorem exists_unclosed (h : ¬ Outside text k) : ∃ s, Unclosed text s k := by
  induction k with
  | zero => exact absurd .start h
  | succ k ih =>
    by_cases hk : Outside text k
    · have hcloses : close.length = 25 := by decide
      have hbegin : begin <+: text.drop k := Classical.byContradiction fun hnone =>
        h (hk.pass hnone)
      exact ⟨k, Nat.lt_succ_self k, hk, hbegin, fun m _ _ => by omega⟩
    · obtain ⟨s, hs⟩ := ih hk
      refine ⟨s, Nat.lt_succ_of_lt hs.lt, hs.outside, hs.begins, fun m hle hfits hstands => ?_⟩
      -- an END marker that ends right here is the first one of that block
      have hends : m + close.length = k + 1 := by
        refine Nat.le_antisymm hfits (Nat.lt_of_not_le fun hbefore => ?_)
        exact hs.unclosed m hle hbefore hstands
      refine h (hends ▸ hs.outside.leave hs.begins ⟨hle, hstands, fun j hj hlt => ?_⟩)
      exact hs.unclosed j hj (by omega)

theorem outside_iff : Outside text k ↔ ¬ ∃ s, Unclosed text s k := by
  constructor
  · rintro hk ⟨s, hs⟩
    obtain ⟨m, hle, hfits, hstands⟩ := hk.ended hs.outside hs.lt hs.begins
    exact hs.unclosed m hle hfits hstands
  · exact fun h => Classical.byContradiction fun hk => h (exists_unclosed hk)

end Places

/-! ### Where the entries come from -/

section Cuts

variable {text : List Char} {k : Nat} {c d : Cut}

theorem Taken.unique (hc : Taken text c) (hd : Taken text d) (h : c.place = d.place) : c = d := by
  obtain ⟨m, hm, hctext⟩ := hc.ends
  obtain ⟨n, hn, hdtext⟩ := hd.ends
  obtain ⟨place, block⟩ := c
  obtain ⟨place', block'⟩ := d
  cases h
  rw [hm.unique hn, hdtext] at hctext
  exact congrArg _ (List.append_cancel_right hctext).symm

theorem firstBlock?_of_taken (hc : Taken text c) (h : k ≤ c.place) :
    firstBlock? (text.drop k) ≠ none := by
  obtain ⟨m, hm, -⟩ := hc.ends
  obtain ⟨s, hs⟩ := exists_firstFrom h hc.begins
  have hsc : s ≤ c.place := Nat.le_of_not_lt fun hlt => hs.first _ h hlt hc.begins
  obtain ⟨n, hn⟩ := exists_firstFrom (Nat.le_trans hsc hm.le) hm.stands
  unfold firstBlock?
  rw [breakAt?_of_firstFrom hs]
  dsimp only [bind, Option.bind]
  rw [breakAt?_of_firstFrom hn]
  exact Option.some_ne_none _

theorem exists_cuts_from (h : Outside text k) :
    ∃ cuts : List Cut, blocks (text.drop k) = cuts.map (·.block ++ ['\n']) ∧
      cuts.Pairwise (fun c d => c.place + c.block.length ≤ d.place) ∧
      ∀ c, c ∈ cuts ↔ k ≤ c.place ∧ Taken text c := by
  induction hsize : (text.drop k).length using Nat.strongRecOn generalizing k with
  | ind size ih =>
    cases hfirst : firstBlock? (text.drop k) with
    | none =>
      refine ⟨[], blocks_of_none hfirst, .nil, fun c => iff_of_false List.not_mem_nil ?_⟩
      rintro ⟨hle, hc⟩
      exact firstBlock?_of_taken hc hle hfirst
    | some found =>
      obtain ⟨block, rest⟩ := found
      obtain ⟨before, body, hbegin, hclose, rfl⟩ := firstBlock?_eq_some_iff.mp hfirst
      obtain ⟨hbegins, htext⟩ := firstFrom_of_breakAt? hbegin
      rw [← htext] at hclose
      obtain ⟨hcloses, hrest⟩ := firstFrom_of_breakAt? hclose
      generalize hs : k + before.length = s at hbegins htext hclose hcloses hrest
      generalize hm : s + body.length = m at hcloses hrest
      have houtside : Outside text s := by
        rw [← hs]
        exact h.passed fun j hj => hbegins.first _ (Nat.le_add_right _ _) (by omega)
      have hleft : Outside text (m + close.length) := houtside.leave hbegins.stands hcloses
      have hbehind : text.drop (m + close.length) = rest := by
        rw [← List.drop_drop, hrest, List.drop_left]
      have hblock : Taken text ⟨s, body ++ close⟩ :=
        ⟨houtside, hbegins.stands, m, hcloses, by rw [htext, hbehind, List.append_assoc]⟩
      have hshort : (text.drop (m + close.length)).length < size := by
        rw [hbehind, ← hsize]
        exact length_of_firstBlock? hfirst
      obtain ⟨cuts, hblocks, hapart, hmem⟩ := ih _ hshort hleft rfl
      have hlength : s + (body ++ close).length = m + close.length := by
        rw [List.length_append]
        omega
      refine ⟨⟨s, body ++ close⟩ :: cuts, ?_, ?_, fun c => ?_⟩
      · rw [blocks_of_some hfirst, ← hbehind, hblocks, List.map_cons]
      · refine List.pairwise_cons.mpr ⟨fun d hd => ?_, hapart⟩
        dsimp only
        rw [hlength]
        exact ((hmem d).mp hd).1
      · rw [List.mem_cons, hmem]
        constructor
        · rintro (rfl | ⟨hle, hc⟩)
          · exact ⟨hbegins.le, hblock⟩
          · have hsm := hcloses.le
            exact ⟨by omega, hc⟩
        · rintro ⟨hle, hc⟩
          have hsc : s ≤ c.place := Nat.le_of_not_lt fun hlt =>
            hbegins.first _ hle hlt hc.begins
          rcases Nat.eq_or_lt_of_le hsc with heq | hlt
          · exact .inl (hc.unique hblock heq.symm)
          · obtain ⟨n, hsn, hfits, hstands⟩ := hc.outside.ended houtside hlt hbegins.stands
            have hmn : m ≤ n := Nat.le_of_not_lt fun hlt => hcloses.first n hsn hlt hstands
            exact .inr ⟨by omega, hc⟩

theorem exists_cuts (text : List Char) :
    ∃ cuts : List Cut, blocks text = cuts.map (·.block ++ ['\n']) ∧
      cuts.Pairwise (fun c d => c.place + c.block.length ≤ d.place) ∧
      ∀ c, c ∈ cuts ↔ Taken text c := by
  have hstart : Outside text 0 := .start
  obtain ⟨cuts, hblocks, hapart, hmem⟩ := exists_cuts_from hstart
  refine ⟨cuts, hblocks, hapart, fun c => ?_⟩
  rw [hmem, and_iff_right (Nat.zero_le _)]

end Cuts

/-! ### Complete blocks -/

section Complete

variable {text body : List Char} {s k m : Nat} {c : Cut}

/-- A block ends with its END marker. -/
theorem Taken.length (hc : Taken text c) :
    ∃ m, FirstFrom close text c.place m ∧ c.place + c.block.length = m + close.length := by
  obtain ⟨m, hm, htext⟩ := hc.ends
  have hlength := congrArg List.length htext
  have hfits := hm.stands.length_le
  have hpos : 0 < close.length := by decide
  have hle := hm.le
  rw [List.length_append, List.length_drop, List.length_drop] at hlength
  rw [List.length_drop] at hfits
  exact ⟨m, hm, by omega⟩

theorem taken_of_firstFrom (houtside : Outside text s) (hbegin : begin <+: text.drop s)
    (hm : FirstFrom close text s m) :
    Taken text ⟨s, (text.drop s).take (m + close.length - s)⟩ := by
  have hle := hm.le
  refine ⟨houtside, hbegin, m, hm, ?_⟩
  rw [← drop_sub_drop (by omega : s ≤ m + close.length), List.take_append_drop]

theorem firstFrom_of_complete (hdash : '-' ∉ body) (hbody : body ≠ ending)
    (h : begin ++ body ++ close <+: text.drop k) :
    FirstFrom close text k (k + (begin ++ body).length) := by
  obtain ⟨rest, htext⟩ := h
  rw [List.append_assoc (begin ++ body)] at htext
  refine (firstFrom_of_breakAt? (breakAt?_eq_some_iff.mpr ⟨htext, List.prefix_append _ _, ?_⟩)).1
  rw [← htext]
  exact fun i hi => not_closes_before hdash hbody hi

/-- A complete block is taken out where no other one is open, unless its body makes an END marker
with the dashes before it. -/
theorem taken_iff_outside (hdash : '-' ∉ body) (h : begin ++ body ++ close <+: text.drop k) :
    Taken text ⟨k, begin ++ body ++ close⟩ ↔ body ≠ ending ∧ Outside text k := by
  have hbegin : begin <+: text.drop k := by
    rw [List.append_assoc] at h
    exact (List.prefix_append _ _).trans h
  constructor
  · intro htaken
    refine ⟨fun hbody => ?_, htaken.outside⟩
    obtain ⟨m, hm, hlength⟩ := htaken.length
    have hearly : close <+: (begin ++ ending ++ close).drop 22 := by decide
    have hlengths : (begin ++ ending ++ close).length = 67 ∧ close.length = 25 := by decide
    rw [hbody] at h hlength
    obtain ⟨rest, htext⟩ := h
    have hstands : close <+: text.drop (k + 22) := by
      rw [← List.drop_drop, ← htext, List.drop_append_of_le_length (by omega)]
      exact hearly.trans (List.prefix_append _ _)
    dsimp only at hm hlength
    exact hm.first (k + 22) (Nat.le_add_right _ _) (by omega) hstands
  · rintro ⟨hbody, houtside⟩
    have htaken := taken_of_firstFrom houtside hbegin (firstFrom_of_complete hdash hbody h)
    have hlength : k + (begin ++ body).length + close.length - k =
        (begin ++ body ++ close).length := by
      simp only [List.length_append]
      omega
    rwa [hlength, ← List.prefix_iff_eq_take.mp h] at htaken

/-- The two markers do not begin at nearly the same place. -/
theorem closes_behind (hbegin : begin <+: text.drop k) (hclose : close <+: text.drop m)
    (h : k ≤ m) : k + 2 ≤ m := by
  have happart : ∀ i < 2, ¬ close <+: begin.drop i := by decide
  have hlengths : begin.length = 27 ∧ close.length = 25 := by decide
  refine Nat.le_of_not_lt fun hnear => ?_
  obtain ⟨i, rfl⟩ := Nat.exists_eq_add_of_le h
  obtain ⟨rest, htext⟩ := hbegin
  rw [← List.drop_drop, ← htext, List.drop_append_of_le_length (by omega)] at hclose
  refine happart i (by omega) (List.prefix_of_prefix_length_le hclose (List.prefix_append _ _) ?_)
  rw [List.length_drop]
  omega

/-- An entry in which a block begins once more is one that was begun twice. -/
theorem exists_begunTwice :
    (∃ c, Taken text c ∧ ∃ j, 0 < j ∧ begin <+: c.block.drop j) ↔
      ∃ s k, BegunTwice text s k := by
  have hlengths : begin.length = 27 ∧ close.length = 25 := by decide
  constructor
  · rintro ⟨c, hc, j, hj, hagain⟩
    obtain ⟨m, hm, hlength⟩ := hc.length
    obtain ⟨_, -, htext⟩ := hc.ends
    have hfits := hagain.length_le
    rw [List.length_drop] at hfits
    have hstands : begin <+: text.drop (c.place + j) := by
      rw [← List.drop_drop, htext, List.drop_append_of_le_length (by omega)]
      exact hagain.trans (List.prefix_append _ _)
    exact ⟨c.place, c.place + j, {
      lt := by omega
      outside := hc.outside
      begins := hc.begins
      again := hstands
      unclosed := fun n hn hlt => hm.first n hn (by omega)
      ends := ⟨m, by omega, hm.stands⟩ }⟩
  · rintro ⟨s, k, h⟩
    obtain ⟨n, hkn, hn⟩ := h.ends
    have hlt := h.lt
    obtain ⟨m, hm⟩ := exists_firstFrom (by omega : s ≤ n) hn
    have hkm : k ≤ m := Nat.le_of_not_lt fun hmk => h.unclosed m hm.le hmk hm.stands
    have hbehind := closes_behind h.again hm.stands hkm
    refine ⟨_, taken_of_firstFrom h.outside h.begins hm, k - s, by omega, ?_⟩
    dsimp only
    rw [List.drop_take, drop_sub_drop (Nat.le_of_lt hlt), List.prefix_take_iff]
    exact ⟨h.again, by omega⟩

end Complete

/-- What splitting returns was taken out of the text in pieces that do not overlap. A complete block
is one of them exactly when no block that was begun before it lacks its END marker there, and its
body is not the words of an END marker. Two certificates are in one piece exactly when a block was
begun twice. -/
theorem own_entry_iff (text : String) :
    ∃ cuts : List Cut,
      splitCertificates text = cuts.map (fun c => String.ofList (c.block ++ ['\n'])) ∧
      cuts.Pairwise (fun c d => c.place + c.block.length ≤ d.place) ∧
      (∀ c ∈ cuts, c.block <+: text.toList.drop c.place) ∧
      (∀ k body, '-' ∉ body → begin ++ body ++ close <+: text.toList.drop k →
        (⟨k, begin ++ body ++ close⟩ ∈ cuts ↔
          body ≠ ending ∧ ¬ ∃ s, Unclosed text.toList s k)) ∧
      ((∃ c ∈ cuts, ∃ j, 0 < j ∧ begin <+: c.block.drop j) ↔
        ∃ s k, BegunTwice text.toList s k) := by
  obtain ⟨cuts, hblocks, hapart, hmem⟩ := exists_cuts text.toList
  refine ⟨cuts, ?_, hapart, fun c hc => ?_, fun k body hdash hstands => ?_, ?_⟩
  · rw [splitCertificates, hblocks, List.map_map]
    rfl
  · obtain ⟨m, -, htext⟩ := ((hmem c).mp hc).ends
    exact ⟨_, htext.symm⟩
  · rw [hmem, taken_iff_outside hdash hstands, outside_iff]
  · rw [← exists_begunTwice]
    exact exists_congr fun c => and_congr_left' (hmem c)

/-- A block without its END marker between two complete ones. -/
def truncatedText : List Char :=
  begin ++ "\nTEVBRg==\n".toList ++ close ++ ['\n'] ++ (begin ++ "\nAAAA\n".toList) ++
    (begin ++ "\nUk9PVA==\n".toList ++ close) ++ ['\n']

theorem unclosed_truncatedText : Unclosed truncatedText 63 96 := by
  have hbefore : ∀ j < 37, ¬ close <+: truncatedText.drop j := by decide +kernel
  have hfirst : FirstFrom close truncatedText 0 37 :=
    ⟨by decide, by decide +kernel, fun j _ hj => hbefore j hj⟩
  have hleft : Outside truncatedText 62 := .leave .start (by decide +kernel) hfirst
  have hnone : ∀ m < 72, 63 ≤ m → ¬ close <+: truncatedText.drop m := by decide +kernel
  have hcloses : close.length = 25 := by decide
  exact ⟨by decide, hleft.pass (by decide +kernel), by decide +kernel,
    fun m hle hfits => hnone m (by omega) hle⟩

/-- The block without its END marker takes the one behind it with it. -/
theorem own_entry_iff_swallowed :
    blocks truncatedText = [
      begin ++ "\nTEVBRg==\n".toList ++ close ++ ['\n'],
      begin ++ "\nAAAA\n".toList ++ (begin ++ "\nUk9PVA==\n".toList ++ close) ++ ['\n']] ∧
    ∃ cuts : List Cut,
      splitCertificates (String.ofList truncatedText) =
        cuts.map (fun c => String.ofList (c.block ++ ['\n'])) ∧
      ⟨0, begin ++ "\nTEVBRg==\n".toList ++ close⟩ ∈ cuts ∧
      ⟨96, begin ++ "\nUk9PVA==\n".toList ++ close⟩ ∉ cuts := by
  obtain ⟨cuts, hsplit, -, -, hown, -⟩ := own_entry_iff (String.ofList truncatedText)
  rw [String.toList_ofList] at hown
  refine ⟨by decide +kernel, cuts, hsplit, ?_, ?_⟩
  · rw [hown 0 _ (by decide) (by decide +kernel)]
    exact ⟨by decide, fun ⟨s, hs⟩ => absurd hs.lt (Nat.not_lt_zero s)⟩
  · rw [hown 96 _ (by decide) (by decide +kernel)]
    exact fun h => h.2 ⟨63, unclosed_truncatedText⟩

end CertIssuer.Authority.Pem
