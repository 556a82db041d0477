import CertIssuer.Authority.Pem
import CertIssuer.Proofs.Text.Trim
import CertIssuer.Proofs.Text.Utf8

/-!
# Blocks stay blocks

A block that was taken out of a text is found again in front of whatever follows it (`IsBlock`).
Hence certificates that are written one after the other fall apart into the same certificates again
(`splitCertificates_join`), be they blocks of a bundle or armored.
-/

namespace CertIssuer.Authority.Pem

/-! ### The first occurrence of a marker -/

section Markers

variable {marker before found cs : List Char}

theorem breakAt?_of_starts (h : marker <+: cs) : breakAt? marker cs = some ([], cs) := by
  cases cs with
  | nil =>
    rw [List.prefix_nil.mp h]
    rfl
  | cons c cs => rw [breakAt?, if_pos (List.isPrefixOf_iff_prefix.mpr h)]

theorem breakAt?_cons {c : Char} (h : ¬ marker <+: c :: cs) :
    breakAt? marker (c :: cs) =
      (breakAt? marker cs).map fun (before, found) => (c :: before, found) := by
  rw [breakAt?, if_neg (mt List.isPrefixOf_iff_prefix.mp h)]

/-- A marker is found where it stands for the first time. -/
theorem breakAt?_eq_some_iff :
    breakAt? marker cs = some (before, found) ↔
      before ++ found = cs ∧ marker <+: found ∧ ∀ k < before.length, ¬ marker <+: cs.drop k := by
  induction cs generalizing before with
  | nil =>
    rw [List.append_eq_nil_iff]
    constructor
    · intro h
      unfold breakAt? at h
      split at h
      · next hempty =>
        cases h
        exact ⟨⟨rfl, rfl⟩, List.isEmpty_iff.mp hempty ▸ List.nil_prefix,
          fun k hk => absurd hk (Nat.not_lt_zero k)⟩
      · cases h
    · rintro ⟨⟨rfl, rfl⟩, hstands, -⟩
      exact breakAt?_of_starts hstands
  | cons c cs ih =>
    by_cases hprefix : marker <+: c :: cs
    · rw [breakAt?_of_starts hprefix, Option.some_inj, Prod.mk.injEq]
      constructor
      · rintro ⟨rfl, rfl⟩
        exact ⟨rfl, hprefix, fun k hk => absurd hk (Nat.not_lt_zero k)⟩
      · rintro ⟨happend, -, hfirst⟩
        cases before with
        | nil => exact ⟨rfl, happend.symm⟩
        | cons d before => exact absurd hprefix (hfirst 0 (Nat.zero_lt_succ _))
    · rw [breakAt?_cons hprefix, Option.map_eq_some_iff]
      constructor
      · rintro ⟨⟨b, f⟩, hbreak, hpair⟩
        cases hpair
        obtain ⟨rfl, hstands, hfirst⟩ := ih.mp hbreak
        refine ⟨rfl, hstands, fun k hk => ?_⟩
        cases k with
        | zero => exact hprefix
        | succ k => exact hfirst k (Nat.lt_of_succ_lt_succ hk)
      · rintro ⟨happend, hstands, hfirst⟩
        cases before with
        | nil =>
          rw [← happend] at hprefix
          exact absurd hstands hprefix
        | cons d before =>
          obtain ⟨rfl, hrest⟩ := List.cons.inj happend
          have hlater : ∀ k < before.length, ¬ marker <+: cs.drop k :=
            fun k hk => hfirst (k + 1) (Nat.succ_lt_succ hk)
          exact ⟨(before, found), ih.mpr ⟨hrest, hstands, hlater⟩, rfl⟩

/-- A marker is found in a text that holds it, and no later than where it is known to stand. -/
theorem exists_breakAt? (marker a b : List Char) :
    ∃ before found, breakAt? marker (a ++ (marker ++ b)) = some (before, found) ∧
      before.length ≤ a.length := by
  induction a with
  | nil => exact ⟨[], _, breakAt?_of_starts (List.prefix_append _ _), Nat.le_refl _⟩
  | cons c a ih =>
    by_cases hprefix : marker <+: c :: (a ++ (marker ++ b))
    · exact ⟨[], _, breakAt?_of_starts hprefix, Nat.zero_le _⟩
    · obtain ⟨before, found, hbreak, hlength⟩ := ih
      refine ⟨c :: before, found, ?_, Nat.succ_le_succ hlength⟩
      rw [List.cons_append, breakAt?_cons hprefix, hbreak]
      rfl

/-- What follows a marker has no say in where the marker is found. -/
theorem breakAt?_change_tail {tail : List Char}
    (h : breakAt? marker (before ++ (marker ++ tail)) = some (before, marker ++ tail))
    (tail' : List Char) :
    breakAt? marker (before ++ (marker ++ tail')) = some (before, marker ++ tail') := by
  obtain ⟨-, -, hfirst⟩ := breakAt?_eq_some_iff.mp h
  refine breakAt?_eq_some_iff.mpr ⟨rfl, List.prefix_append _ _, fun k hk hstands => hfirst k hk ?_⟩
  rw [List.drop_append_of_le_length (Nat.le_of_lt hk), ← List.append_assoc] at hstands ⊢
  have hshort : marker <+: before.drop k ++ marker :=
    List.prefix_of_prefix_length_le hstands (List.prefix_append _ _) (by simp)
  exact hshort.trans (List.prefix_append _ _)

end Markers

/-! ### Blocks -/

/-- What an END marker says between its dashes. -/
def ending : List Char := "END CERTIFICATE".toList

/-- A text that is taken out in one piece, whatever follows it. -/
def IsBlock (block : List Char) : Prop :=
  ∀ rest, firstBlock? (block ++ rest) = some (block, rest)

section Blocks

variable {cs body block rest : List Char}

theorem firstBlock?_eq_some_iff :
    firstBlock? cs = some (block, rest) ↔
      ∃ before body, breakAt? begin cs = some (before, body ++ (close ++ rest)) ∧
        breakAt? close (body ++ (close ++ rest)) = some (body, close ++ rest) ∧
        block = body ++ close := by
  constructor
  · intro h
    obtain ⟨⟨before, fromBegin⟩, hbegin, h⟩ := Option.bind_eq_some_iff.mp h
    obtain ⟨⟨body, fromClose⟩, hclose, h⟩ := Option.bind_eq_some_iff.mp h
    cases h
    obtain ⟨rfl, ⟨tail, rfl⟩, -⟩ := breakAt?_eq_some_iff.mp hclose
    refine ⟨before, body, ?_⟩
    rw [List.drop_left]
    exact ⟨hbegin, hclose, rfl⟩
  · rintro ⟨before, body, hbegin, hclose, rfl⟩
    unfold firstBlock?
    rw [hbegin]
    dsimp only [bind, Option.bind]
    rw [hclose]
    dsimp only
    rw [List.drop_left]
    rfl

/-- The markers of a block cannot begin at nearly the same place. -/
theorem begin_prefix_block (hbegin : begin <+: body ++ (close ++ rest)) :
    begin <+: body ++ close := by
  have happart : ∀ k < 2, ¬ close <+: begin.drop k := by decide
  have hbegins : begin.length = 27 := by decide
  have hcloses : close.length = 25 := by decide
  have hlong : begin.length ≤ (body ++ close).length := by
    refine Nat.le_of_not_lt fun hshort => ?_
    rw [List.length_append] at hshort
    have hbody : body.length < 2 := by omega
    obtain ⟨tail, htail⟩ := hbegin
    have hdrop := congrArg (List.drop body.length) htail
    rw [List.drop_left, List.drop_append_of_le_length (by omega)] at hdrop
    refine happart body.length hbody (List.prefix_of_prefix_length_le ⟨rest, rfl⟩ ⟨tail, hdrop⟩ ?_)
    rw [List.length_drop]
    omega
  rw [← List.append_assoc] at hbegin
  exact List.prefix_of_prefix_length_le hbegin (List.prefix_append _ _) hlong

theorem isBlock_of_firstBlock? (h : firstBlock? cs = some (block, rest)) : IsBlock block := by
  obtain ⟨before, body, hbegin, hclose, rfl⟩ := firstBlock?_eq_some_iff.mp h
  have hstarts : begin <+: body ++ close :=
    begin_prefix_block (breakAt?_eq_some_iff.mp hbegin).2.1
  intro rest'
  rw [List.append_assoc]
  refine firstBlock?_eq_some_iff.mpr ⟨[], body, ?_, breakAt?_change_tail hclose rest', rfl⟩
  rw [← List.append_assoc]
  exact breakAt?_of_starts (hstarts.trans (List.prefix_append _ _))

/-- A block begins with a dash, so any other character in front of it is passed over. -/
theorem firstBlock?_cons {c : Char} (hc : c ≠ '-') : firstBlock? (c :: cs) = firstBlock? cs := by
  have hbegin : ¬ begin <+: c :: cs := by
    intro h
    exact hc (List.cons_prefix_cons.mp h).1.symm
  unfold firstBlock?
  rw [breakAt?_cons hbegin]
  cases breakAt? begin cs <;> rfl

theorem firstBlock?_of_dashless (h : '-' ∉ cs) : firstBlock? cs = none := by
  induction cs with
  | nil => rfl
  | cons c cs ih =>
    rw [List.mem_cons, not_or] at h
    rw [firstBlock?_cons (Ne.symm h.1), ih h.2]

/-- A text that holds both markers, one after the other, holds a block. -/
theorem firstBlock?_of_markers (a b c : List Char) :
    firstBlock? (a ++ (begin ++ (b ++ (close ++ c)))) ≠ none := by
  obtain ⟨before, found, hbegin, hlength⟩ := exists_breakAt? begin a (b ++ (close ++ c))
  obtain ⟨happend, -, -⟩ := breakAt?_eq_some_iff.mp hbegin
  have hfound : found = (a.drop before.length ++ (begin ++ b)) ++ (close ++ c) := by
    have hdrop := congrArg (List.drop before.length) happend
    rw [List.drop_left, List.drop_append_of_le_length hlength] at hdrop
    rw [hdrop]
    simp only [List.append_assoc]
  obtain ⟨body, fromClose, hclose, -⟩ :=
    exists_breakAt? close (a.drop before.length ++ (begin ++ b)) c
  unfold firstBlock?
  rw [hbegin]
  dsimp only [bind, Option.bind]
  rw [hfound, hclose]
  exact Option.some_ne_none _

/-- What stands before the first dash of a text is determined by the text. -/
theorem eq_of_dash {a b x y : List Char} (ha : '-' ∉ a) (hb : '-' ∉ b)
    (h : a ++ '-' :: x = b ++ '-' :: y) : a = b := by
  have hbefore : ∀ {l z : List Char}, '-' ∉ l → (l ++ '-' :: z).takeWhile (· ≠ '-') = l := by
    intro l z hl
    rw [List.takeWhile_append_of_pos, List.takeWhile_cons_of_neg (by decide), List.append_nil]
    intro c hc
    exact decide_eq_true fun heq => hl (heq ▸ hc)
  rw [← hbefore ha, h, hbefore hb]

/-- An END marker that begins in the last dashes of a BEGIN marker ends in the dashes that come
next. -/
theorem eq_ending (hdash : '-' ∉ body) {i : Nat} (hi : i < begin.length)
    (hstands : close <+: begin.drop i ++ (body ++ (close ++ rest))) : body = ending := by
  have hclash : ∀ i < 22, ¬ (close <+: begin.drop i ∨ begin.drop i <+: close) := by decide
  have hdashes : ∀ i < 27, 22 < i → begin.drop i ++ ['-'] <+: close := by decide
  have hten : ∀ i < 27, 22 < i → ¬ close <+: begin.drop i ++ close := by decide
  have hlength : begin.length = 27 := by decide
  rw [hlength] at hi
  rcases Nat.lt_trichotomy i 22 with hearly | rfl | hlate
  · exact absurd (List.prefix_or_prefix_of_prefix hstands (List.prefix_append _ _))
      (hclash i hearly)
  · have hmarker : close = begin.drop 22 ++ (ending ++ '-' :: "----".toList) := by decide
    have hdashed : close = '-' :: close.tail := by decide
    obtain ⟨tail, htail⟩ := hstands
    rw [hmarker, List.append_assoc, List.append_cancel_left_eq, ← hmarker, hdashed,
      List.append_assoc] at htail
    exact (eq_of_dash (by decide) hdash htail).symm
  · cases body with
    | nil =>
      rw [List.nil_append, ← List.append_assoc] at hstands
      refine absurd (List.prefix_of_prefix_length_le hstands (List.prefix_append _ _) ?_)
        (hten i hi hlate)
      simp
    | cons c body =>
      have hdash' := (List.prefix_append_right_inj _).mp ((hdashes i hi hlate).trans hstands)
      have hc : '-' = c := (List.cons_prefix_cons.mp hdash').1
      exact absurd (hc ▸ List.mem_cons_self) hdash

/-- A body without dashes holds no END marker, nor does it make one with the BEGIN marker before it
unless it is the words of one. -/
theorem not_closes_before (hdash : '-' ∉ body) (hbody : body ≠ ending) {i : Nat}
    (hi : i < (begin ++ body).length) :
    ¬ close <+: (begin ++ body ++ (close ++ rest)).drop i := by
  intro hstands
  by_cases hmarker : i < begin.length
  · rw [List.append_assoc, List.drop_append_of_le_length (Nat.le_of_lt hmarker)] at hstands
    exact hbody (eq_ending hdash hmarker hstands)
  · have hchar : (begin ++ body)[i] ∈ body := by
      rw [List.getElem_append_right (Nat.le_of_not_lt hmarker)]
      exact List.getElem_mem _
    rw [List.drop_append_of_le_length (Nat.le_of_lt hi), List.drop_eq_getElem_cons hi] at hstands
    have heq : '-' = (begin ++ body)[i] := (List.cons_prefix_cons.mp hstands).1
    exact hdash (heq ▸ hchar)

/-- A block whose body holds no dash. -/
theorem isBlock_of_dashless (hdash : '-' ∉ body) (hbody : body ≠ ending) :
    IsBlock (begin ++ body ++ close) := by
  intro rest
  have hclose : breakAt? close (begin ++ body ++ (close ++ rest)) =
      some (begin ++ body, close ++ rest) :=
    breakAt?_eq_some_iff.mpr ⟨rfl, List.prefix_append _ _,
      fun k hk => not_closes_before hdash hbody hk⟩
  rw [List.append_assoc]
  refine firstBlock?_eq_some_iff.mpr ⟨[], _, breakAt?_of_starts ?_, hclose, rfl⟩
  rw [List.append_assoc]
  exact List.prefix_append _ _

/-! ### All blocks of a text -/

theorem blocks_of_none (h : firstBlock? cs = none) : blocks cs = [] := by
  rw [blocks]
  split
  · rfl
  · next hsome =>
    rw [h] at hsome
    cases hsome

theorem blocks_of_some (h : firstBlock? cs = some (block, rest)) :
    blocks cs = (block ++ ['\n']) :: blocks rest := by
  rw [blocks]
  split
  · next hnone =>
    rw [h] at hnone
    cases hnone
  · next hsome =>
    rw [h] at hsome
    cases hsome
    rfl

theorem blocks_cons {c : Char} (hc : c ≠ '-') : blocks (c :: cs) = blocks cs := by
  cases h : firstBlock? cs with
  | none => rw [blocks_of_none h, blocks_of_none ((firstBlock?_cons hc).trans h)]
  | some found =>
    obtain ⟨block, rest⟩ := found
    rw [blocks_of_some h, blocks_of_some ((firstBlock?_cons hc).trans h)]

end Blocks

/-! ### Certificates -/

/-- A block with a line end after it. -/
def IsCertificate (text : String) : Prop := ∃ block, IsBlock block ∧ text.toList = block ++ ['\n']

theorem isCertificate_of_mem_split {text certificate : String}
    (h : certificate ∈ splitCertificates text) : IsCertificate certificate := by
  obtain ⟨cs, hcs, rfl⟩ := List.mem_map.mp h
  clear h
  generalize text.toList = all at hcs
  fun_induction blocks all with
  | case1 cs hnone => exact absurd hcs List.not_mem_nil
  | case2 cs block rest hsome hshort ih =>
    rcases List.mem_cons.mp hcs with rfl | hcs
    · exact ⟨block, isBlock_of_firstBlock? hsome, String.toList_ofList⟩
    · exact ih hcs

theorem blocks_flatMap {certificates : List String} (h : ∀ c ∈ certificates, IsCertificate c) :
    blocks (certificates.flatMap String.toList) = certificates.map String.toList := by
  induction certificates with
  | nil => exact blocks_of_none rfl
  | cons c rest ih =>
    obtain ⟨⟨block, hblock, hc⟩, hrest⟩ := List.forall_mem_cons.mp h
    rw [List.flatMap_cons, List.map_cons, hc, List.append_assoc, blocks_of_some (hblock _)]
    exact congrArg _ ((blocks_cons (by decide)).trans (ih hrest))

/-- Certificates one after the other fall apart into the same certificates. -/
theorem splitCertificates_join {certificates : List String}
    (h : ∀ c ∈ certificates, IsCertificate c) :
    splitCertificates (String.join certificates) = certificates := by
  have htext : (String.join certificates).toList = certificates.flatMap String.toList := by simp
  rw [splitCertificates, htext, blocks_flatMap h]
  simp

/-! ### Armor -/

theorem mem_of_mem_pieces {fuel : Nat} {bytes piece : Text.Bytes} (h : piece ∈ pieces fuel bytes)
    {b : UInt8} (hb : b ∈ piece) : b ∈ bytes := by
  induction fuel generalizing bytes with
  | zero => exact absurd h List.not_mem_nil
  | succ fuel ih =>
    unfold pieces at h
    split at h
    · exact absurd h List.not_mem_nil
    · rcases List.mem_cons.mp h with rfl | h
      · exact List.mem_of_mem_take hb
      · exact List.mem_of_mem_drop (ih h)

/-- Cutting a text into lines makes no ASCII character. -/
theorem not_mem_bodyLines {body line : String} {c : Char} (hpos : 0 < c.toNat)
    (hascii : c.toNat < 128) (hbody : c ∉ body.toList) (h : line ∈ bodyLines body) :
    c ∉ line.toList := by
  intro hmem
  obtain ⟨piece, hpiece, rfl⟩ := List.mem_map.mp h
  obtain ⟨b, hb, hnumber⟩ := Text.exists_of_mem_toTextLossy hpos hascii hmem
  obtain ⟨d, hd, hsame⟩ := Text.exists_of_mem_toBytes (mem_of_mem_pieces hpiece hb)
    (hnumber ▸ hascii)
  have hchar : d = c := Char.toNat_inj.mp (hsame.trans hnumber)
  rw [hchar] at hd
  exact hbody hd

theorem armor_isCertificate {entry : String} (h : '-' ∉ entry.toList) :
    IsCertificate (armor entry) := by
  have htrimmed : '-' ∉ Text.trimChars entry.toList := fun hdash => h (Text.mem_of_mem_trimChars hdash)
  have hbare : ¬ begin.isPrefixOf (Text.trimChars entry.toList) = true := by
    intro hbegin
    exact htrimmed ((List.isPrefixOf_iff_prefix.mp hbegin).subset (by decide))
  have hlines : '-' ∉ '\n' :: (bodyLines (String.ofList
      ((Text.trimChars entry.toList).filter (!Text.isBlank ·)))).flatMap
        fun line => line.toList ++ ['\n'] := by
    refine List.not_mem_cons_of_ne_of_not_mem (by decide) fun hdash => ?_
    obtain ⟨line, hline, hdash⟩ := List.mem_flatMap.mp hdash
    rcases List.mem_append.mp hdash with hdash | hdash
    · refine not_mem_bodyLines (by decide) (by decide) ?_ hline hdash
      rw [String.toList_ofList]
      exact fun hmem => htrimmed ((List.mem_filter.mp hmem).1)
    · exact absurd hdash (by decide)
  have hending : '\n' ∉ ending := by decide
  refine ⟨_, isBlock_of_dashless hlines fun heq => hending (heq ▸ List.mem_cons_self), ?_⟩
  simp only [armor, if_neg hbare]
  simp [List.flatMap_map]

/-! ### Entries of an answer -/

theorem splitCertificates_eq_nil {entry : String} (h : '-' ∉ entry.toList) :
    splitCertificates entry = [] := by
  rw [splitCertificates, blocks_of_none (firstBlock?_of_dashless h), List.map_nil]

theorem splitCertificates_ne_nil {entry : String} {a b c : List Char}
    (h : entry.toList = a ++ (begin ++ (b ++ (close ++ c)))) : splitCertificates entry ≠ [] := by
  cases hfirst : firstBlock? entry.toList with
  | none =>
    rw [h] at hfirst
    exact absurd hfirst (firstBlock?_of_markers a b c)
  | some found =>
    rw [splitCertificates, blocks_of_some hfirst, List.map_cons]
    exact List.cons_ne_nil _ _

theorem ofEntry_of_nil {entry : String} (h : splitCertificates entry = []) :
    ofEntry entry = [armor entry] := by
  rw [ofEntry, h]

theorem ofEntry_of_ne_nil {entry : String} (h : splitCertificates entry ≠ []) :
    ofEntry entry = splitCertificates entry := by
  unfold ofEntry
  split
  · next hnil => exact absurd hnil h
  · rfl

theorem ofEntry_ne_nil (entry : String) : ofEntry entry ≠ [] := by
  by_cases h : splitCertificates entry = []
  · rw [ofEntry_of_nil h]
    exact List.cons_ne_nil _ _
  · rwa [ofEntry_of_ne_nil h]

theorem flatMap_ofEntry_ne_nil {entries : List String} (h : entries ≠ []) :
    entries.flatMap ofEntry ≠ [] := by
  obtain ⟨entry, hentry⟩ := List.exists_mem_of_ne_nil entries h
  intro hnone
  exact ofEntry_ne_nil entry (List.flatMap_eq_nil_iff.mp hnone entry hentry)

/-- An entry that holds a block, the BEGIN marker and after it the END marker. -/
def IsBundle (entry : String) : Prop :=
  ∃ a b c, entry.toList = a ++ begin ++ b ++ close ++ c

/-- An entry that holds no dash, and so no marker. -/
def IsBare (entry : String) : Prop := '-' ∉ entry.toList

/-- The certificates in an entry: the blocks of a bundle in place, a bare entry armored. -/
def taken (entry : String) : List String :=
  if '-' ∈ entry.toList then splitCertificates entry else [armor entry]

theorem taken_eq {entry : String} (h : IsBundle entry ∨ IsBare entry) :
    ofEntry entry = taken entry := by
  unfold taken
  rcases h with ⟨a, b, c, hentry⟩ | hbare
  · have hmarker : '-' ∈ begin := by decide
    have hdash : '-' ∈ entry.toList := by
      rw [hentry]
      simp only [List.mem_append, hmarker, or_true, true_or]
    simp only [List.append_assoc] at hentry
    rw [if_pos hdash, ofEntry_of_ne_nil (splitCertificates_ne_nil hentry)]
  · rw [if_neg hbare, ofEntry_of_nil (splitCertificates_eq_nil hbare)]

theorem isCertificate_of_mem_taken {entry certificate : String} (h : certificate ∈ taken entry) :
    IsCertificate certificate := by
  unfold taken at h
  split at h
  · exact isCertificate_of_mem_split h
  · next hbare =>
    rw [List.mem_singleton.mp h]
    exact armor_isCertificate hbare

end CertIssuer.Authority.Pem
