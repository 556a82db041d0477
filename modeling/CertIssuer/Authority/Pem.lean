import CertIssuer.Text.Blank
import CertIssuer.Text.Utf8

/-!
# Certificates in PEM

A certificate block runs from a BEGIN line to the next END line. `splitCertificates` takes the
blocks out of a text and drops what stands around them. `armor` puts bare base64 between the two
lines, cut every 64 bytes, and leaves a block as it is.

The two are `split_certificates` and `ensure_pem`.
-/

namespace CertIssuer.Authority.Pem

/-- The marker before a certificate. -/
def begin : List Char := "-----BEGIN CERTIFICATE-----".toList

/-- The marker after a certificate. -/
def close : List Char := "-----END CERTIFICATE-----".toList

/-! ### Splitting -/

/-- The text from the first occurrence of a marker on, and what stands before it. -/
def breakAt? (marker : List Char) : List Char → Option (List Char × List Char)
  | [] => if marker.isEmpty then some ([], []) else none
  | c :: cs =>
    if marker.isPrefixOf (c :: cs) then some ([], c :: cs)
    else (breakAt? marker cs).map fun (before, found) => (c :: before, found)

theorem append_of_breakAt? {marker cs before found : List Char}
    (h : breakAt? marker cs = some (before, found)) : before ++ found = cs := by
  induction cs generalizing before with
  | nil =>
    unfold breakAt? at h
    split at h
    · cases h
      rfl
    · exact absurd h (by simp)
  | cons c cs ih =>
    unfold breakAt? at h
    split at h
    · cases h
      rfl
    · obtain ⟨⟨b, f⟩, hb, he⟩ := Option.map_eq_some_iff.1 h
      cases he
      rw [List.cons_append, ih hb]

/-- The first certificate block of a text, and what follows it. -/
def firstBlock? (cs : List Char) : Option (List Char × List Char) := do
  let (_, fromBegin) ← breakAt? begin cs
  let (body, fromClose) ← breakAt? close fromBegin
  return (body ++ close, fromClose.drop close.length)

theorem length_of_breakAt? {marker cs before found : List Char}
    (h : breakAt? marker cs = some (before, found)) : found.length ≤ cs.length := by
  have h := congrArg List.length (append_of_breakAt? h)
  rw [List.length_append] at h
  omega

theorem ne_nil_of_breakAt? {marker cs before found : List Char} (hm : marker ≠ [])
    (h : breakAt? marker cs = some (before, found)) : found ≠ [] := by
  induction cs generalizing before with
  | nil => simp [breakAt?, hm] at h
  | cons c cs ih =>
    unfold breakAt? at h
    split at h
    · cases h
      exact List.cons_ne_nil c cs
    · obtain ⟨⟨b, f⟩, hb, he⟩ := Option.map_eq_some_iff.1 h
      cases he
      exact ih hb

/-- What follows the first block is shorter than the text. -/
theorem length_of_firstBlock? {cs block rest : List Char}
    (h : firstBlock? cs = some (block, rest)) : rest.length < cs.length := by
  obtain ⟨⟨b, fromBegin⟩, h₁, h⟩ := Option.bind_eq_some_iff.1 h
  obtain ⟨⟨body, fromClose⟩, h₂, h⟩ := Option.bind_eq_some_iff.1 h
  cases h
  have l₁ := length_of_breakAt? h₁
  have l₂ := length_of_breakAt? h₂
  have hc := List.length_pos_iff.2 (ne_nil_of_breakAt? (by decide) h₂)
  have : 0 < close.length := by decide
  simp only [List.length_drop]
  omega

/-- The blocks of a text, in order, each with a line end after it. -/
def blocks (cs : List Char) : List (List Char) :=
  match found : firstBlock? cs with
  | none => []
  | some (block, rest) =>
    have : rest.length < cs.length := length_of_firstBlock? found
    (block ++ ['\n']) :: blocks rest
termination_by cs.length

/-- The certificates in a text. -/
def splitCertificates (text : String) : List String := (blocks text.toList).map String.ofList

/-! ### Armor -/

/-- Bytes in pieces of 64, the last one perhaps shorter. -/
def pieces : Nat → Text.Bytes → List Text.Bytes
  | 0, _ => []
  | fuel + 1, bytes =>
    if bytes.isEmpty then [] else bytes.take 64 :: pieces fuel (bytes.drop 64)

/-- Lines of 64 bytes; a character that a cut divides is lost on both sides of it. -/
def bodyLines (body : String) : List String :=
  let bytes := Text.toBytes body
  (pieces bytes.length bytes).map Text.toTextLossy

/-- A certificate that may lack its markers, as a block with a line end after it. -/
def armor (certificate : String) : String :=
  let trimmed := Text.trimChars certificate.toList
  if begin.isPrefixOf trimmed then String.ofList (trimmed ++ ['\n'])
  else
    let body := String.ofList (trimmed.filter (!Text.isBlank ·))
    let lines := [String.ofList begin] ++ bodyLines body ++ [String.ofList close]
    String.join (lines.map (· ++ "\n"))

/-- The certificates of one entry of an answer: its blocks, or the entry itself when it has none. -/
def ofEntry (entry : String) : List String :=
  match splitCertificates entry with
  | [] => [armor entry]
  | certificates => certificates

end CertIssuer.Authority.Pem
