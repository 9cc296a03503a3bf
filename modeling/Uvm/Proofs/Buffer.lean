import Uvm.Bench
import Uvm.Proofs.Inversion
import Uvm.Proofs.Session

/-! A buffer that instructions are appended to, some of which are refused. What it held at first
stays in front, and behind that stand the encodings of the instructions that were not refused, whole
and in order. So at any time a sweep from there finds just these instructions. -/
namespace Uvm

/-- A request to append an instruction. -/
structure Request where
  op : Op
  operand : Nat
  policy : OnOverflow
  deriving DecidableEq, Repr

namespace Request

def emit (buffer : List UInt8) (r : Request) : List UInt8 × Except Overflow Unit :=
  encodeInto buffer r.op r.operand r.policy

/-- The operand is not refused for its width. -/
def fits (r : Request) : Bool := r.policy != .reject || decide (r.operand < 2 ^ r.op.fieldBits)

/-- The instruction that is asked for, its operand taken modulo the field. -/
def decoded (r : Request) : Decoded := ⟨r.op, r.operand % 2 ^ r.op.fieldBits, r.op.length⟩

theorem fits_iff {r : Request} :
    r.fits = true ↔ (r.policy = .reject → r.operand < r.op.fieldBound) := by
  rw [fits, Op.fieldBound_eq_two_pow]
  cases r.policy <;> simp

theorem decoded_eq_ofCode (r : Request) : r.decoded = .ofCode r.op r.operand := by
  rw [decoded, Decoded.ofCode, Op.fieldBound_eq_two_pow]

theorem emit_of_fits {r : Request} (h : r.fits = true) (buffer : List UInt8) :
    emit buffer r = (buffer ++ code r.op r.operand, .ok ()) := by
  rw [fits_iff] at h
  rw [emit, encodeInto_eq, if_neg]
  rintro ⟨hreject, hwide⟩
  exact absurd (h hreject) (Nat.not_lt.mpr hwide)

/-- A refused request leaves the buffer as it was. -/
theorem emit_of_not_fits {r : Request} (h : ¬ r.fits = true) (buffer : List UInt8) :
    emit buffer r = (buffer, .error ⟨r.op, r.operand⟩) := by
  rw [fits_iff, Classical.not_imp, Nat.not_lt] at h
  rw [emit, encodeInto_eq, if_pos h]

theorem emit_eq_ok_iff {buffer : List UInt8} {r : Request} :
    (emit buffer r).2 = .ok () ↔ r.fits = true := by
  by_cases h : r.fits = true
  · simp [emit_of_fits h, h]
  · simp [emit_of_not_fits h, h]

theorem exists_emit_eq_error_iff {buffer : List UInt8} {r : Request} :
    (∃ overflow, (emit buffer r).2 = .error overflow) ↔ ¬ r.fits = true := by
  by_cases h : r.fits = true
  · simp [emit_of_fits h, h]
  · simp [emit_of_not_fits h, h]

/-- Requests are refused for what they ask, whatever the buffer holds. -/
theorem accepted_emit (start : List UInt8) (requests : List Request) :
    Session.accepted emit start requests = requests.filter fits := by
  apply Session.accepted_eq_filter
  intro buffer r
  exact emit_eq_ok_iff

theorem run_emit (start : List UInt8) (requests : List Request) :
    Session.run emit start requests =
      start ++ (requests.filter fits).flatMap fun r => code r.op r.operand := by
  have hok (buffer : List UInt8) (r : Request) (h : (emit buffer r).2 = .ok ()) :
      id (emit buffer r).1 = id buffer ++ code r.op r.operand := by
    rw [emit_of_fits (emit_eq_ok_iff.mp h)]
    rfl
  have herror (buffer : List UInt8) (r : Request) (overflow : Overflow)
      (h : (emit buffer r).2 = .error overflow) : id (emit buffer r).1 = id buffer := by
    rw [emit_of_not_fits (exists_emit_eq_error_iff.mp ⟨overflow, h⟩)]
  rw [← accepted_emit start]
  exact Session.run_appends hok herror start requests

/-- The encodings of requests are swept to their end, one instruction for each request. -/
theorem sweep_codes (requests : List Request) :
    (sweep (requests.flatMap fun r => code r.op r.operand)).stoppedAt = none ∧
      (sweep (requests.flatMap fun r => code r.op r.operand)).instructions.map Prod.snd =
        requests.map decoded := by
  have hcodes := sweepFrom_codes (requests.map fun r => (r.op, r.operand)) 0
  have hdecoded : requests.map decoded = requests.map fun r => .ofCode r.op r.operand :=
    List.map_congr_left fun r _ => decoded_eq_ofCode r
  rw [List.flatMap_map, List.map_map] at hcodes
  rw [hdecoded]
  exact hcodes

/-- After any requests, the buffer is what it was at first and behind it the encodings of the
requests that were accepted, in order. A request is refused exactly when it asks for that and its
operand is too wide for the field, and then it leaves the buffer as it was; and no request takes
anything away. What stands behind the first content is swept to its end, and the sweep finds the
accepted requests, their operands modulo the field. -/
theorem run_emit_whole (start : List UInt8) (requests : List Request) :
    let buffer := Session.run emit start requests
    let done := Session.accepted emit start requests
    (∃ codes, List.Forall₂ (fun r bytes => encode r.op r.operand r.policy = .ok bytes) done codes ∧
      buffer = start ++ codes.flatten) ∧
    (∀ r, (∃ overflow, (emit buffer r).2 = .error overflow) ↔
      r.policy = .reject ∧ 2 ^ r.op.fieldBits ≤ r.operand) ∧
    (∀ r overflow, (emit buffer r).2 = .error overflow →
      Session.run emit start (requests ++ [r]) = buffer) ∧
    (∀ more, buffer <+: Session.run emit start (requests ++ more)) ∧
    (sweep (buffer.drop start.length)).stoppedAt = none ∧
    (sweep (buffer.drop start.length)).instructions.map Prod.snd = done.map decoded := by
  intro buffer done
  have hdone : done = requests.filter fits := accepted_emit start requests
  have hbuffer : buffer = start ++ done.flatMap fun r => code r.op r.operand := by
    rw [hdone]
    exact run_emit start requests
  have hbehind : buffer.drop start.length = done.flatMap fun r => code r.op r.operand := by
    rw [hbuffer, List.drop_left]
  rw [hbehind]
  refine ⟨⟨done.map fun r => code r.op r.operand, ?_, ?_⟩, fun r => ?_, fun r overflow h => ?_,
    fun more => ?_, sweep_codes done⟩
  · rw [List.forall₂_map_right_iff, List.forall₂_same]
    intro r hr
    rw [hdone] at hr
    exact encode_eq_ok_iff.mpr ⟨fits_iff.mp (List.mem_filter.mp hr).2, rfl⟩
  · rw [hbuffer, List.flatMap_def]
  · rw [exists_emit_eq_error_iff, fits_iff, Classical.not_imp, Nat.not_lt,
      Op.fieldBound_eq_two_pow]
  · rw [Session.run_append, Session.run_cons,
      emit_of_not_fits (exists_emit_eq_error_iff.mp ⟨overflow, h⟩)]
    rfl
  · rw [Session.run_append, run_emit buffer more]
    exact List.prefix_append _ _

theorem run_emit_whole_past_refused_operand :
    let requests : List Request :=
      [⟨.load, 1, .mask⟩, ⟨.read, 0x10000, .reject⟩, ⟨.read, 0x10001, .mask⟩]
    let buffer := Session.run emit [0xCA, 0x11] requests
    buffer = [0xCA, 0x11, 0xCA, 1, 0, 0, 0x9C, 1, 0] ∧
      (emit buffer ⟨.sub, 0x1000000, .reject⟩).2 = .error ⟨.sub, 0x1000000⟩ ∧
      Session.run emit [0xCA, 0x11] (requests ++ [⟨.sub, 0x1000000, .reject⟩]) = buffer ∧
      (sweep (buffer.drop 2)).stoppedAt = none ∧
      (sweep (buffer.drop 2)).instructions.map Prod.snd = [⟨.load, 1, 4⟩, ⟨.read, 1, 3⟩] := by
  intro requests buffer
  have herror : (emit buffer ⟨.sub, 0x1000000, .reject⟩).2 = .error ⟨.sub, 0x1000000⟩ := by rfl
  obtain ⟨-, -, hrefused, -, hstop, hfound⟩ := run_emit_whole [0xCA, 0x11] requests
  exact ⟨by rfl, herror, hrefused _ _ herror, hstop, hfound.trans (by rfl)⟩

end Request

/-- A step of a bench that fails leaves it as it was. -/
theorem Bench.unchanged_of_error (bench : Bench) :
    (∀ source fault, (bench.load source).2 = .error fault → (bench.load source).1 = bench) ∧
    (∀ fault, bench.reload.2 = .error fault → bench.reload.1 = bench) ∧
    (∀ fault, bench.generate.2 = .error fault → bench.generate.1 = bench) ∧
    ∀ op operand overflow, (bench.emit op operand).2 = .error overflow →
      (bench.emit op operand).1 = bench := by
  have hload (source : Text) (fault : Fault) (h : (bench.load source).2 = .error fault) :
      (bench.load source).1 = bench := by
    unfold load at h ⊢
    cases hresolve : resolveSource source with
    | error => rfl
    | ok commands => simp [hresolve] at h
  refine ⟨hload, fun fault h => hload _ fault h, fun fault h => ?_,
    fun op operand overflow h => ?_⟩
  · unfold generate at h ⊢
    cases hgenerate : (Uvm.generate bench.settings bench.commands).result with
    | error => rfl
    | ok assembly => simp [hgenerate] at h
  · have hbytes := encodeInto_of_error h
    exact congrArg (fun bytes => { bench with bytes }) hbytes

end Uvm
