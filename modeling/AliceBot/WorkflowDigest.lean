import AliceBot.Library.JsonOrder

/-!
# Digests of workflow requests

`vnext_workflow_idempotency`: a retry of a request has the digest of the first
attempt. The members that name an attempt are deleted wherever they stand, what
is left is written canonically, and the text is hashed.

The digest is taken of a text, so it loses nothing but what the text loses. The
canonical text loses the order of members alone, and that the deletion reaches
every depth is what `SameUpTo` says of the payloads (`logicalWorkflowDigest_eq_iff`).
-/

namespace AliceBot

open PyLib

/-- `_VOLATILE_ATTEMPT_KEYS`. -/
def volatileAttemptKeys : List String := ["agent_run_id", "run_id", "scheduler_run_id", "trace_id"]

/-- `_logical_value`. -/
def logicalValue (value : Json) : Json := value.deleteKeys volatileAttemptKeys

section Digest

variable {δ : Type} (floatText : Rat → List Char) (sha256 : ByteArray → δ)

/-- `json.dumps(…, sort_keys=True, separators=(",", ":"))`. -/
def encodedPayload (payload : Json) : String :=
  String.ofList ((logicalValue payload).sortKeys.write floatText)

/-- `logical_workflow_digest`. -/
def logicalWorkflowDigest (payload : Json) : δ :=
  sha256 (encodedPayload floatText payload).toUTF8

/-- The text identifies the logical request. -/
theorem encodedPayload_eq_iff {p q : Json} (hp : p.Plain) (hq : q.Plain) :
    encodedPayload floatText p = encodedPayload floatText q ↔
      Json.SameUpTo volatileAttemptKeys p q := by
  rw [← Json.normal_eq_iff volatileAttemptKeys hp hq]
  constructor
  · intro h
    have htext := congrArg String.toList h
    rw [encodedPayload, encodedPayload, String.toList_ofList, String.toList_ofList] at htext
    exact Json.write_inj (hp.normal volatileAttemptKeys) (hq.normal volatileAttemptKeys) htext
  · intro h
    have hvalue : (logicalValue p).sortKeys = (logicalValue q).sortKeys := h
    rw [encodedPayload, encodedPayload, hvalue]

/-- Two payloads have one digest exactly when they are the same request: equal
up to the order of members and the members that name an attempt, at every
depth. -/
theorem logicalWorkflowDigest_eq_iff (hsha256 : Function.Injective sha256) {p q : Json}
    (hp : p.Plain) (hq : q.Plain) :
    logicalWorkflowDigest floatText sha256 p = logicalWorkflowDigest floatText sha256 q ↔
      Json.SameUpTo volatileAttemptKeys p q := by
  rw [← encodedPayload_eq_iff floatText hp hq]
  constructor
  · intro h
    exact String.toByteArray_inj.mp (hsha256 h)
  · intro h
    rw [logicalWorkflowDigest, logicalWorkflowDigest, h]

end Digest

/-- A request, in its first attempt. -/
def firstAttempt : Json :=
  .obj [("topic", .str "x"), ("run_id", .str "r1"),
    ("items", .arr [.obj [("trace_id", .int 1), ("n", .int 2)]])]

/-- The request again, in another order and by another run. -/
def secondAttempt : Json :=
  .obj [("items", .arr [.obj [("n", .int 2), ("trace_id", .null)]]), ("topic", .str "x")]

theorem logicalWorkflowDigest_attempts :
    logicalWorkflowDigest (fun _ => []) id firstAttempt =
      logicalWorkflowDigest (fun _ => []) id secondAttempt := by
  have hitem : Json.Plain (.obj [("trace_id", .int 1), ("n", .int 2)]) :=
    .obj (by decide) (by simp [Json.Plain.int])
  have hitem' : Json.Plain (.obj [("n", .int 2), ("trace_id", .null)]) :=
    .obj (by decide) (by simp [Json.Plain.int, Json.Plain.null])
  have hitems {item : Json} (h : item.Plain) : Json.Plain (.arr [item]) := .arr (by simpa using h)
  have hfirst : firstAttempt.Plain :=
    .obj (by decide) (by simp [hitems hitem, Json.Plain.str])
  have hsecond : secondAttempt.Plain :=
    .obj (by decide) (by simp [hitems hitem', Json.Plain.str])
  exact (logicalWorkflowDigest_eq_iff _ id Function.injective_id hfirst hsecond).mpr
    ((Json.normal_eq_iff _ hfirst hsecond).mp (by decide +kernel))

end AliceBot
