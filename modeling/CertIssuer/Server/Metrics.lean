import CertIssuer.Number.Shortest
import CertIssuer.Time.Span

/-!
# Metrics

What the process counts: its passes by controller and result, how long they took, and the
certificates that were issued. The exposition lists the families by name and the samples of a
family by the values of their labels. A family without samples is left out.

The counts are those of `Metrics` (`record_reconcile`, `record_certificate_issued`), shown by
`render`.
-/

namespace CertIssuer.Server

/-! ### Samples -/

/-- Samples by the values of their labels, in the order of these. -/
abbrev Samples (α : Type) := List (List String × α)

/-- Changes the sample of some label values, which begins with a first value. -/
def Samples.update {α : Type} (labels : List String) (first : α) (change : α → α) :
    Samples α → Samples α
  | [] => [(labels, change first)]
  | (other, sample) :: rest =>
    if labels = other then (labels, change sample) :: rest
    else if labels < other then (labels, change first) :: (other, sample) :: rest
    else (other, sample) :: Samples.update labels first change rest

/-- The upper bounds of the buckets for durations, with their texts. -/
def bounds : List (Span × String) := [
  (⟨5000000⟩, "0.005"), (⟨10000000⟩, "0.01"), (⟨50000000⟩, "0.05"), (⟨100000000⟩, "0.1"),
  (⟨500000000⟩, "0.5"), (.ofSeconds 1, "1"), (.ofSeconds 5, "5"), (.ofSeconds 10, "10"),
  (.ofSeconds 30, "30"), (.ofSeconds 60, "60")]

/-- Durations: how many there are up to each bound and in all, and their sum in seconds. -/
structure Histogram where
  upTo : List Nat := bounds.map fun _ => 0
  count : Nat := 0
  sum : Binary64 := .finite 0

/-- Takes a duration in. -/
def Histogram.observe (h : Histogram) (d : Span) : Histogram where
  upTo := List.zipWith (fun n (bound : Span × String) => if d ≤ bound.1 then n + 1 else n) h.upTo bounds
  count := h.count + 1
  sum := h.sum.add (.ofSpanParts d.seconds d.subsecond)

structure Metrics where
  /-- Passes by controller and result. -/
  passes : Samples Nat := []
  /-- Durations of passes by controller. -/
  durations : Samples Histogram := []
  issued : Nat := 0

namespace Metrics

/-- Counts a pass. -/
def recordPass (m : Metrics) (controller result : String) (d : Span) : Metrics :=
  { m with
    passes := m.passes.update [controller, result] 0 (· + 1)
    durations := m.durations.update [controller] {} (·.observe d) }

/-- Counts a certificate. -/
def recordIssued (m : Metrics) : Metrics := { m with issued := m.issued + 1 }

/-! ### Exposition -/

/-- A character of a label's value. -/
def labelChar (c : Char) : List Char :=
  if c = '\\' then ['\\', '\\']
  else if c = '"' then ['\\', '"']
  else if c = '\n' then ['\\', 'n']
  else [c]

def labelText (name value : String) : String :=
  name ++ "=\"" ++ String.ofList (value.toList.flatMap labelChar) ++ "\""

/-- One line: a name, labels in braces if there are any, and a value. -/
def sampleLine (name : String) (labels : List (String × String)) (value : String) : String :=
  let shown :=
    if labels.isEmpty then ""
    else "\x7b" ++ String.intercalate "," (labels.map fun (n, v) => labelText n v) ++ "\x7d"
  name ++ shown ++ " " ++ value ++ "\n"

/-- The two lines before the samples of a family. -/
def heading (name help type : String) : String :=
  "# HELP " ++ name ++ " " ++ help ++ "\n# TYPE " ++ name ++ " " ++ type ++ "\n"

/-- The lines of a family, none when it has no samples. -/
def family (name help type : String) (lines : List String) : String :=
  if lines.isEmpty then "" else heading name help type ++ String.join lines

def issuedName : String := "command_issuer_certificates_issued_total"

def issuedFamily (m : Metrics) : String :=
  family issuedName "Certificates written to CertificateRequest status" "counter"
    [sampleLine issuedName [] (toString m.issued)]

def durationsName : String := "command_issuer_reconcile_duration_seconds"

/-- The lines of the durations of one controller. -/
def histogramLines (names values : List String) (h : Histogram) : String :=
  let labels := names.zip values
  let bucket (bound : String) (n : Nat) : String :=
    sampleLine (durationsName ++ "_bucket") (labels ++ [("le", bound)]) (toString n)
  let buckets := List.zipWith (fun (bound : Span × String) n => bucket bound.2 n) bounds h.upTo
  String.join buckets ++ bucket "+Inf" h.count ++
    sampleLine (durationsName ++ "_sum") labels h.sum.text ++
    sampleLine (durationsName ++ "_count") labels (toString h.count)

def durationsFamily (m : Metrics) : String :=
  family durationsName "Time spent in one reconciliation" "histogram"
    (m.durations.map fun (values, h) => histogramLines ["controller"] values h)

def passesName : String := "command_issuer_reconcile_total"

def passesFamily (m : Metrics) : String :=
  family passesName "Reconciliations by controller and result" "counter"
    (m.passes.map fun (values, n) =>
      sampleLine passesName (["controller", "result"].zip values) (toString n))

/-- All metrics as text. -/
def render (m : Metrics) : String := m.issuedFamily ++ m.durationsFamily ++ m.passesFamily

end Metrics

end CertIssuer.Server
