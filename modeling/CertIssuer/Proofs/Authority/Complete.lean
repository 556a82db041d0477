import CertIssuer.Authority.Enrollment
import CertIssuer.Proofs.Authority.Pem
import Mathlib.Logic.ExistsUnique

/-!
# Certificates that are whole

An answer may hold any texts as its certificates, and they go through splitting and armoring before
they count as issued. What comes out is a certificate in one piece, with two markers and something
between them, unless the text was spoiled in one of four ways: it was blank, it began a block and
never ended it, a block of it was begun once more inside, or a block of it held nothing
(`issued_complete_iff`). None of these is refused.
-/

namespace CertIssuer.Authority

namespace Pem

/-- The marker stands in the text once. -/
def Once (marker cs : List Char) : Prop := ∃! k, marker <+: cs.drop k

/-- One block with a line end after it: each marker stands there once, and what stands between them
is not blank. -/
structure Complete (certificate : String) : Prop where
  filled : ∃ body, certificate.toList = begin ++ body ++ close ++ ['\n'] ∧
    ∃ c ∈ body, Text.isBlank c = false
  begins : Once begin certificate.toList
  closes : Once close certificate.toList

/-- The ways in which an entry of an answer can be no certificate. -/
inductive Spoiled (entry : String) : Prop
  | blank : Text.isBlankText entry = true → Spoiled entry
  | unclosed : splitCertificates entry = [] → begin <+: Text.trimChars entry.toList →
      Spoiled entry
  | merged {block : String} {k : Nat} : block ∈ splitCertificates entry → 0 < k →
      begin <+: block.toList.drop k → Spoiled entry
  | hollow {block : String} : block ∈ splitCertificates entry →
      (∀ body, block.toList = begin ++ body ++ close ++ ['\n'] →
        ∀ c ∈ body, Text.isBlank c = true) → Spoiled entry

/-! ### Blocks of a bundle -/

section Block

variable {certificate : String}

/-- A block begins with its BEGIN marker and ends where the END marker stands for the first time. -/
theorem IsCertificate.framed (h : IsCertificate certificate) :
    begin <+: certificate.toList ∧ ∃ body, certificate.toList = body ++ (close ++ ['\n']) ∧
      ∀ k < body.length, ¬ close <+: certificate.toList.drop k := by
  obtain ⟨block, hblock, htext⟩ := h
  obtain ⟨before, body, hbegin, hclose, rfl⟩ := firstBlock?_eq_some_iff.mp (hblock ['\n'])
  obtain ⟨hsplit, hstands, -⟩ := breakAt?_eq_some_iff.mp hbegin
  obtain ⟨-, -, hfirst⟩ := breakAt?_eq_some_iff.mp hclose
  rw [List.append_assoc] at htext
  rw [htext]
  exact ⟨hstands, body, rfl, hfirst⟩

theorem IsCertificate.closes (h : IsCertificate certificate) :
    Once close certificate.toList := by
  obtain ⟨-, body, htext, hfirst⟩ := h.framed
  -- from the END marker on, the text is too short for another one
  have hafter : ∀ k < 27, close <+: (close ++ ['\n']).drop k → k = 0 := by decide
  refine ⟨body.length, ?_, fun k hstands => ?_⟩
  · dsimp only
    rw [htext, List.drop_left]
    exact List.prefix_append _ _
  · have hle : body.length ≤ k := Nat.le_of_not_lt fun hk => hfirst k hk hstands
    obtain ⟨j, rfl⟩ := Nat.exists_eq_add_of_le hle
    rw [htext, List.drop_append, List.drop_eq_nil_of_le hle, List.nil_append,
      Nat.add_sub_cancel_left] at hstands
    have hj : j < 27 := by
      have hlength := hstands.length_le
      have hcloses : close.length = 25 := by decide
      rw [List.length_drop, List.length_append, hcloses] at hlength
      simp at hlength
      omega
    rw [hafter j hj hstands]
    rfl

/-- A block is complete unless it is begun once more or holds nothing. -/
theorem IsCertificate.complete (h : IsCertificate certificate)
    (hbegin : ∀ k, 0 < k → ¬ begin <+: certificate.toList.drop k)
    (hfilled : ∃ body, certificate.toList = begin ++ body ++ close ++ ['\n'] ∧
      ∃ c ∈ body, Text.isBlank c = false) : Complete certificate where
  filled := hfilled
  begins := ⟨0, h.framed.1, fun k hstands =>
    Nat.eq_zero_of_not_pos fun hk => hbegin k hk hstands⟩
  closes := h.closes

end Block

theorem Complete.not_begins {certificate : String} (h : Complete certificate) {k : Nat}
    (hk : 0 < k) : ¬ begin <+: certificate.toList.drop k := by
  obtain ⟨body, htext, -⟩ := h.filled
  have hzero : begin <+: certificate.toList.drop 0 := by
    rw [List.drop_zero, htext, List.append_assoc, List.append_assoc]
    exact List.prefix_append _ _
  intro hstands
  rw [h.begins.unique hstands hzero] at hk
  exact Nat.lt_irrefl 0 hk

/-! ### Armored entries -/

/-- What stands between the lines of the two markers when an entry is armored. -/
def bareLines (entry : String) : List Char :=
  (bodyLines (String.ofList ((Text.trimChars entry.toList).filter (!Text.isBlank ·)))).flatMap
    fun line => line.toList ++ ['\n']

theorem toList_armor {entry : String} (h : ¬ begin <+: Text.trimChars entry.toList) :
    (armor entry).toList = begin ++ ('\n' :: bareLines entry) ++ close ++ ['\n'] := by
  have hbare : ¬ begin.isPrefixOf (Text.trimChars entry.toList) = true :=
    mt List.isPrefixOf_iff_prefix.mp h
  simp only [armor, if_neg hbare, bareLines]
  simp [List.flatMap_map]

theorem toList_armor_begun {entry : String} (h : begin <+: Text.trimChars entry.toList) :
    (armor entry).toList = Text.trimChars entry.toList ++ ['\n'] := by
  rw [armor]
  dsimp only
  rw [if_pos (List.isPrefixOf_iff_prefix.mpr h), String.toList_ofList]

/-- The first character of a text is not lost in the first line of it. -/
theorem head_mem_bodyLines (c : Char) (cs : List Char) :
    ∃ line ∈ bodyLines (String.ofList (c :: cs)), c ∈ line.toList := by
  have hbytes : Text.toBytes (String.ofList (c :: cs)) =
      String.utf8EncodeChar c ++ cs.flatMap String.utf8EncodeChar := by
    rw [Text.toBytes_ofList, List.flatMap_cons]
  -- no character takes more than four bytes, so the first cut does not divide this one
  have hshort : (String.utf8EncodeChar c).length ≤ 64 := by
    rw [String.length_utf8EncodeChar]
    exact Nat.le_trans c.utf8Size_le_four (by decide)
  have hpos : 0 < (String.utf8EncodeChar c).length := by
    rw [String.length_utf8EncodeChar]
    exact c.utf8Size_pos
  refine ⟨Text.toTextLossy ((Text.toBytes (String.ofList (c :: cs))).take 64),
    List.mem_map_of_mem ?_, ?_⟩
  · generalize hall : Text.toBytes (String.ofList (c :: cs)) = bytes
    cases bytes with
    | nil =>
      rw [hbytes, List.append_eq_nil_iff] at hall
      rw [hall.1] at hpos
      exact absurd hpos (Nat.lt_irrefl 0)
    | cons b rest => exact List.mem_cons_self
  · rw [hbytes, List.take_append, List.take_of_length_le hshort, Text.toTextLossy,
      String.toList_ofList, Text.lossyFrom_utf8EncodeChar]
    exact List.mem_cons_self

theorem spaceless_bareLines (entry : String) : ' ' ∉ bareLines entry := by
  intro hspace
  obtain ⟨line, hline, hspace⟩ := List.mem_flatMap.mp hspace
  rcases List.mem_append.mp hspace with hspace | hspace
  · refine not_mem_bodyLines (by decide) (by decide) ?_ hline hspace
    rw [String.toList_ofList, List.mem_filter]
    exact fun hmem => absurd hmem.2 (by decide)
  · exact absurd hspace (by decide)

theorem filled_bareLines {entry : String} (h : Text.isBlankText entry = false) :
    ∃ c ∈ bareLines entry, Text.isBlank c = false := by
  obtain ⟨x, hx, hfilled⟩ := List.all_eq_false.mp h
  have hkept : x ∈ (Text.trimChars entry.toList).filter (!Text.isBlank ·) := by
    rw [Bool.not_eq_true] at hfilled
    exact List.mem_filter.mpr ⟨Text.mem_trimChars hx hfilled, by rw [hfilled]; rfl⟩
  unfold bareLines
  cases hbody : (Text.trimChars entry.toList).filter (!Text.isBlank ·) with
  | nil =>
    rw [hbody] at hkept
    exact absurd hkept List.not_mem_nil
  | cons c cs =>
    have hc : c ∈ (Text.trimChars entry.toList).filter (!Text.isBlank ·) := by
      rw [hbody]
      exact List.mem_cons_self
    obtain ⟨line, hline, hmem⟩ := head_mem_bodyLines c cs
    refine ⟨c, List.mem_flatMap.mpr ⟨line, hline, List.mem_append_left _ hmem⟩, ?_⟩
    simpa using (List.mem_filter.mp hc).2

/-! ### Markers around text without spaces -/

section Spaceless

variable {marker cs : List Char}

/-- Both markers hold one space. A marker that stands in a text has it there as well. -/
theorem space_of_stands {k i : Nat} (hspace : marker[i]? = some ' ')
    (h : marker <+: cs.drop k) : cs[k + i]? = some ' ' := by
  obtain ⟨tail, htail⟩ := h
  have hi : i < marker.length := (List.getElem?_eq_some_iff.mp hspace).1
  rw [← List.getElem?_drop, ← htail, List.getElem?_append_left hi, hspace]

variable {lines : List Char} (h : ' ' ∉ lines)

include h

theorem spaces_of_armored {j : Nat}
    (hj : (begin ++ ('\n' :: lines) ++ close ++ ['\n'])[j]? = some ' ') :
    j = 10 ∨ j = (begin ++ ('\n' :: lines)).length + 8 := by
  have hbegin : ∀ j < 27, begin[j]? = some ' ' → j = 10 := by decide
  have hclose : ∀ j < 26, (close ++ ['\n'])[j]? = some ' ' → j = 8 := by decide
  rw [List.append_assoc] at hj
  by_cases hinner : j < (begin ++ ('\n' :: lines)).length
  · left
    rw [List.getElem?_append_left hinner] at hj
    by_cases hmarker : j < 27
    · rw [List.getElem?_append_left hmarker] at hj
      exact hbegin j hmarker hj
    · rw [List.getElem?_append_right (Nat.le_of_not_lt hmarker)] at hj
      have hmem : ' ' ∈ '\n' :: lines := List.mem_of_getElem? hj
      exact absurd (List.mem_of_ne_of_mem (by decide) hmem) h
  · right
    have hle := Nat.le_of_not_lt hinner
    rw [List.getElem?_append_right hle] at hj
    have hlt : j - (begin ++ ('\n' :: lines)).length < 26 :=
      (List.getElem?_eq_some_iff.mp hj).1
    have heq := hclose _ hlt hj
    omega

theorem begins_of_armored : Once begin (begin ++ ('\n' :: lines) ++ close ++ ['\n']) := by
  refine ⟨0, ?_, fun k hstands => ?_⟩
  · dsimp only
    rw [List.drop_zero, List.append_assoc, List.append_assoc]
    exact List.prefix_append _ _
  · rcases spaces_of_armored h (space_of_stands (by decide : begin[10]? = some ' ') hstands)
      with hspace | hspace
    · omega
    · -- the space of the END marker is two characters nearer to its start
      have hclash : ¬ begin.drop 2 <+: close ++ ['\n'] := by decide
      obtain ⟨tail, htail⟩ := hstands
      have hdrop := congrArg (List.drop 2) htail
      have hk : k + 2 = (begin ++ ('\n' :: lines)).length := by omega
      rw [List.drop_append_of_le_length (by decide), List.drop_drop, hk, List.append_assoc,
        List.drop_left] at hdrop
      exact absurd ⟨tail, hdrop⟩ hclash

theorem closes_of_armored : Once close (begin ++ ('\n' :: lines) ++ close ++ ['\n']) := by
  refine ⟨(begin ++ ('\n' :: lines)).length, ?_, fun k hstands => ?_⟩
  · dsimp only
    rw [List.append_assoc, List.drop_left]
    exact List.prefix_append _ _
  · rcases spaces_of_armored h (space_of_stands (by decide : close[8]? = some ' ') hstands)
      with hspace | hspace
    · have hclash : ∀ tail, ¬ close <+: begin.drop 2 ++ tail := by
        intro tail hprefix
        have hwhole : close <+: begin.drop 2 :=
          List.prefix_of_prefix_length_le hprefix (List.prefix_append _ _) (by decide)
        exact absurd hwhole (by decide)
      have hk : k = 2 := by omega
      rw [hk, List.append_assoc, List.append_assoc, List.drop_append_of_le_length (by decide)]
        at hstands
      exact absurd hstands (hclash _)
    · omega

end Spaceless

/-- An entry without a block is armored to a complete one if there is something in it. -/
theorem armor_complete {entry : String} (hbegin : ¬ begin <+: Text.trimChars entry.toList)
    (hfilled : Text.isBlankText entry = false) : Complete (armor entry) := by
  have htext := toList_armor hbegin
  have hspaceless := spaceless_bareLines entry
  obtain ⟨c, hc, hmark⟩ := filled_bareLines hfilled
  exact {
    filled := ⟨'\n' :: bareLines entry, htext, c, List.mem_cons_of_mem _ hc, hmark⟩
    begins := htext ▸ begins_of_armored hspaceless
    closes := htext ▸ closes_of_armored hspaceless }

theorem armor_blank {entry : String} (h : Text.isBlankText entry = true) :
    (armor entry).toList = begin ++ ['\n'] ++ close ++ ['\n'] := by
  have hstart : Text.trimStart entry.toList = [] :=
    List.dropWhile_eq_nil_iff.mpr (List.all_eq_true.mp h)
  have htrimmed : Text.trimChars entry.toList = [] := by rw [Text.trimChars, hstart]; rfl
  have hbegin : ¬ begin <+: Text.trimChars entry.toList := by
    rw [htrimmed]
    decide
  rw [toList_armor hbegin, bareLines, htrimmed]
  rfl

theorem not_dash_of_blank {entry : String} (h : Text.isBlankText entry = true) :
    '-' ∉ entry.toList :=
  fun hdash => absurd (List.all_eq_true.mp h '-' hdash) (by decide)

/-! ### Entries of an answer -/

theorem begins_of_mem_ofEntry {entry certificate : String} (h : certificate ∈ ofEntry entry) :
    begin <+: certificate.toList ∧ ['\n'] <:+ certificate.toList := by
  by_cases hsplit : splitCertificates entry = []
  · rw [ofEntry_of_nil hsplit, List.mem_singleton] at h
    rw [h]
    by_cases hbegin : begin <+: Text.trimChars entry.toList
    · rw [toList_armor_begun hbegin]
      exact ⟨hbegin.trans (List.prefix_append _ _), List.suffix_append _ _⟩
    · rw [toList_armor hbegin]
      refine ⟨?_, List.suffix_append _ _⟩
      rw [List.append_assoc, List.append_assoc]
      exact List.prefix_append _ _
  · rw [ofEntry_of_ne_nil hsplit] at h
    obtain ⟨hbegin, body, htext, -⟩ := (isCertificate_of_mem_split h).framed
    refine ⟨hbegin, ?_⟩
    rw [htext, ← List.append_assoc]
    exact List.suffix_append _ _

theorem not_complete_of_unclosed {entry : String} (hsplit : splitCertificates entry = [])
    (hbegin : begin <+: Text.trimChars entry.toList) : ¬ Complete (armor entry) := by
  rintro ⟨⟨body, htext, -⟩, -, -⟩
  rw [toList_armor_begun hbegin] at htext
  have htrimmed : Text.trimChars entry.toList = begin ++ body ++ close :=
    List.append_cancel_right htext
  obtain ⟨a, b, hentry⟩ := Text.exists_trimChars entry.toList
  rw [htrimmed] at hentry
  simp only [List.append_assoc] at hentry
  exact splitCertificates_ne_nil hentry hsplit

theorem not_complete_of_blank {entry : String} (h : Text.isBlankText entry = true) :
    ¬ Complete (armor entry) := by
  rintro ⟨⟨body, htext, c, hc, hfilled⟩, -, -⟩
  rw [armor_blank h] at htext
  have hbody : ['\n'] = body := by
    simpa only [List.append_assoc, List.append_cancel_left_eq, List.append_cancel_right_eq]
      using htext
  rw [← hbody, List.mem_singleton] at hc
  rw [hc] at hfilled
  cases hfilled

/-- An entry gives complete certificates unless it is spoiled. -/
theorem complete_iff_not_spoiled (entry : String) :
    (∀ certificate ∈ ofEntry entry, Complete certificate) ↔ ¬ Spoiled entry := by
  constructor
  · intro hcomplete hspoiled
    cases hspoiled with
    | blank hblank =>
      rw [ofEntry_of_nil (splitCertificates_eq_nil (not_dash_of_blank hblank))] at hcomplete
      exact not_complete_of_blank hblank (hcomplete _ List.mem_cons_self)
    | unclosed hsplit hbegin =>
      rw [ofEntry_of_nil hsplit] at hcomplete
      exact not_complete_of_unclosed hsplit hbegin (hcomplete _ List.mem_cons_self)
    | merged hblock hk hbegin =>
      rw [ofEntry_of_ne_nil (List.ne_nil_of_mem hblock)] at hcomplete
      exact (hcomplete _ hblock).not_begins hk hbegin
    | hollow hblock hhollow =>
      rw [ofEntry_of_ne_nil (List.ne_nil_of_mem hblock)] at hcomplete
      obtain ⟨body, htext, c, hc, hfilled⟩ := (hcomplete _ hblock).filled
      rw [hhollow body htext c hc] at hfilled
      cases hfilled
  · intro hsound certificate hmem
    by_cases hsplit : splitCertificates entry = []
    · rw [ofEntry_of_nil hsplit, List.mem_singleton] at hmem
      rw [hmem]
      refine armor_complete (fun hbegin => hsound (.unclosed hsplit hbegin)) ?_
      exact Bool.eq_false_iff.mpr fun hblank => hsound (.blank hblank)
    · rw [ofEntry_of_ne_nil hsplit] at hmem
      refine (isCertificate_of_mem_split hmem).complete
        (fun k hk hbegin => hsound (.merged hmem hk hbegin)) ?_
      refine Classical.byContradiction fun hnone => hsound (.hollow hmem fun body htext c hc => ?_)
      exact eq_true_of_ne_false fun hfilled => hnone ⟨body, htext, c, hc, hfilled⟩

end Pem

namespace Enrollment

section Conclude

variable {info : CertificateInformation}

theorem issued_of_conclude {issued : IssuedCertificate} (h : conclude info = .ok issued) :
    isIssued info.disposition = true ∧ issued.certificates ≠ [] ∧
      issued.certificates = info.certificates.flatMap Pem.ofEntry := by
  unfold conclude at h
  split at h
  · next hissued =>
    dsimp only at h
    split at h
    · cases h
    · next hsome =>
      cases h
      exact ⟨hissued, fun hnil => hsome (List.isEmpty_iff.mpr hnil), rfl⟩
  · cases h

theorem error_of_conclude {e : CallError} (h : conclude info = .error e) :
    (∃ text, e = .disposition info.disposition text) ∧
      (isIssued info.disposition = true → info.certificates = []) := by
  unfold conclude at h
  split at h
  · dsimp only at h
    split at h
    · next hempty =>
      cases h
      refine ⟨⟨_, rfl⟩, fun _ => Classical.byContradiction fun hsome => ?_⟩
      exact Pem.flatMap_ofEntry_ne_nil hsome (List.isEmpty_iff.mp hempty)
    · cases h
  · next hother =>
    cases h
    exact ⟨⟨_, rfl⟩, fun hissued => absurd hissued hother⟩

end Conclude

/-- The certificates of an answer that counts as issued are complete exactly when no entry of the
answer is spoiled; spoiled ones are let through as they come. An answer is only refused when it
cannot be read, when its disposition is another one, or when it has no entry at all, and then it is
not to be asked for again. -/
theorem issued_complete_iff (body : String) :
    (∀ issued, decode body = .ok issued →
      ∃ info, CertificateInformation.ofBody? body = some info ∧
        isIssued info.disposition = true ∧ issued.certificates ≠ [] ∧
        (∀ c ∈ issued.certificates, Pem.begin <+: c.toList ∧ ['\n'] <:+ c.toList) ∧
        ((∀ c ∈ issued.certificates, Pem.Complete c) ↔
          ∀ entry ∈ info.certificates, ¬ Pem.Spoiled entry)) ∧
    ∀ e, decode body = .error e → e.isTransient = false ∧
      (CertificateInformation.ofBody? body = none ∧ (∃ text, e = .unreadableEnrollment text) ∨
        ∃ info, CertificateInformation.ofBody? body = some info ∧
          (∃ text, e = .disposition info.disposition text) ∧
          (isIssued info.disposition = true → info.certificates = [])) := by
  cases hread : CertificateInformation.ofBody? body with
  | none =>
    simp only [decode, hread]
    refine ⟨fun issued h => (nomatch h), fun e h => ?_⟩
    cases h
    exact ⟨rfl, .inl ⟨trivial, _, rfl⟩⟩
  | some info =>
    simp only [decode, hread]
    refine ⟨fun issued h => ?_, fun e h => ?_⟩
    · obtain ⟨hissued, hsome, hall⟩ := issued_of_conclude h
      refine ⟨info, rfl, hissued, hsome, ?_, ?_⟩
      · intro c hc
        rw [hall] at hc
        obtain ⟨entry, -, hmem⟩ := List.mem_flatMap.mp hc
        exact Pem.begins_of_mem_ofEntry hmem
      · rw [hall, List.forall_mem_flatMap]
        exact forall₂_congr fun entry _ => Pem.complete_iff_not_spoiled entry
    · obtain ⟨⟨text, rfl⟩, hnone⟩ := error_of_conclude h
      exact ⟨rfl, .inr ⟨info, rfl, ⟨text, rfl⟩, hnone⟩⟩

/-- An answer with a blank text and a block without its end in place of certificates. -/
def spoiledAnswer : String :=
  "\x7b\"CertificateInformation\":\x7b\"RequestDisposition\":\"ISSUED\",\"Certificates\":[" ++
    "\"\",\"-----BEGIN CERTIFICATE-----\\nQQ==\"]\x7d\x7d"

def spoiledCertificates : List String := [
  "-----BEGIN CERTIFICATE-----\n-----END CERTIFICATE-----\n",
  "-----BEGIN CERTIFICATE-----\nQQ==\n"]

/-- Neither of the two is a certificate, and both are issued. -/
theorem issued_complete_iff_spoiled :
    ∃ issued, decode spoiledAnswer = .ok issued ∧ issued.certificates = spoiledCertificates ∧
      ¬ ∀ c ∈ issued.certificates, Pem.Complete c := by
  have hread : CertificateInformation.ofBody? spoiledAnswer = some {
      certificates := ["", "-----BEGIN CERTIFICATE-----\nQQ=="]
      disposition := "ISSUED" } := by
    decide +kernel
  have htaken : ["", "-----BEGIN CERTIFICATE-----\nQQ=="].flatMap Pem.ofEntry =
      spoiledCertificates := by
    decide +kernel
  have hdecoded : decode spoiledAnswer =
      .ok ⟨spoiledCertificates, none, none, none, none⟩ := by
    simp only [decode, hread, conclude, htaken]
    rfl
  refine ⟨_, hdecoded, rfl, fun hcomplete => ?_⟩
  obtain ⟨info, hinfo, -, -, -, hiff⟩ := (issued_complete_iff spoiledAnswer).1 _ hdecoded
  cases hread.symm.trans hinfo
  exact hiff.mp hcomplete "" List.mem_cons_self (.blank rfl)

end Enrollment

end CertIssuer.Authority
