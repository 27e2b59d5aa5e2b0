import ShapeFlow.Digest.Sha256
import ShapeFlow.Flow.Proposal

/-!
# Records of computations

* `Report.canonical`: the record of a computation without any space. Tables are in order and fields
  have a fixed order, so equal computations have equal texts.
* `Report.fingerprint`: the digest of that text.
* `Report.record`: the record with judgements on proposals, one item to a line.
-/

namespace ShapeFlow.Report

/-- The record of a computation without any space. -/
def canonical (r : Recomputation) : String := r.toJson.compact

/-- The SHA-256 digest of the canonical record, in base 16. -/
def fingerprint (r : Recomputation) : String := Sha256.hexDigest (canonical r)

/-- The record of a checked proposal. -/
def checkedJson (p : Proposal) (judgement : Judgement) : Json :=
  .object (("proposal", p.toJson) :: judgement.fields)

/-- The record of a computation and of the proposals that were checked against it. -/
def record (r : Recomputation) (checked : List (Proposal × Judgement)) : String :=
  let connections :=
    if checked.isEmpty then []
    else [("connections", Json.array (checked.map (fun (p, judgement) => checkedJson p judgement)))]
  (Json.object (r.fields ++ connections)).pretty

end ShapeFlow.Report
