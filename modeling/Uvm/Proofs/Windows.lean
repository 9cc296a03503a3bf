import Uvm.Disk
import Uvm.Proofs.Inversion
import Uvm.Tool.Disassembler

/-! Windows of a file. Decoding looks at no more bytes than the instruction has, so cutting bytes
off takes away the instructions that no longer fit and changes no other; and a sweep that comes to
an offset goes on from there as if the bytes started there. So a window that starts between two
instructions is swept to just those of the file that lie in it. -/
namespace Uvm

/-- The instructions of a sweep that lie between two offsets, with their places counted from the
first of these. -/
def Sweep.within (s : Sweep) (start stop : Nat) : List (Nat × Decoded) :=
  (s.instructions.filter fun i => start ≤ i.1 ∧ i.1 + i.2.length ≤ stop).map fun i =>
    (i.1 - start, i.2)

/-- The front, and every offset at which an instruction of the sweep ends. -/
inductive Sweep.Boundary (s : Sweep) : Nat → Prop where
  | front : s.Boundary 0
  | behind {i : Nat × Decoded} (found : i ∈ s.instructions) : s.Boundary (i.1 + i.2.length)

/-- What decodes in a front part decodes in the whole. -/
theorem decode_of_decode_take {bytes : List UInt8} {n : Nat} {d : Decoded}
    (h : decode (bytes.take n) = some d) : decode bytes = some d := by
  apply decode_of_take_prefix h
  exact (List.take_prefix _ _).trans (List.take_prefix _ _)

theorem decode_take_of_le {bytes : List UInt8} {n : Nat} {d : Decoded} (h : decode bytes = some d)
    (hfits : d.length ≤ n) : decode (bytes.take n) = some d := by
  apply decode_of_take_prefix h
  exact List.take_prefix_take_left hfits

theorem decode_take_of_lt {bytes : List UInt8} {n : Nat} {d : Decoded} (h : decode bytes = some d)
    (hcut : n < d.length) : decode (bytes.take n) = none := by
  cases hfront : decode (bytes.take n) with
  | none => rfl
  | some other =>
    have hlength := length_le_of_decode hfront
    rw [decode_of_decode_take hfront] at h
    cases h
    rw [List.length_take] at hlength
    omega

/-- Cutting bytes off takes the instructions away that end behind the cut. -/
theorem instructions_sweepFrom_take (offset : Nat) (bytes : List UInt8) (n : Nat) :
    (sweepFrom offset (bytes.take n)).instructions =
      (sweepFrom offset bytes).instructions.filter fun i => i.1 + i.2.length ≤ offset + n := by
  fun_induction sweepFrom offset bytes generalizing n with
  | case1 offset bytes hnone =>
    have hcut : decode (bytes.take n) = none := by
      cases hfront : decode (bytes.take n) with
      | none => rfl
      | some d =>
        rw [decode_of_decode_take hfront] at hnone
        cases hnone
    rw [instructions_sweepFrom_of_decode_none hcut]
    rfl
  | case2 offset bytes d hsome rest ih =>
    by_cases hfits : d.length ≤ n
    · have hhead : offset + d.length ≤ offset + n := by omega
      have hplace : offset + d.length + (n - d.length) = offset + n := by omega
      rw [sweepFrom_of_decode (decode_take_of_le hsome hfits), List.drop_take, ih, hplace,
        List.filter_cons, if_pos (decide_eq_true hhead)]
    · -- The cut falls into this instruction, and the others lie behind it.
      rw [instructions_sweepFrom_of_decode_none (decode_take_of_lt hsome (by omega))]
      symm
      apply List.filter_eq_nil_iff.mpr
      intro i hi
      rw [decide_eq_true_eq]
      rcases List.mem_cons.mp hi with rfl | hi
      · dsimp only
        omega
      · have hle := le_of_mem_sweepFrom hi
        omega

/-- A sweep finds the same instructions wherever the bytes stand. -/
theorem instructions_sweepFrom_add (start offset : Nat) (bytes : List UInt8) :
    (sweepFrom (start + offset) bytes).instructions =
      (sweepFrom offset bytes).instructions.map fun i => (start + i.1, i.2) := by
  fun_induction sweepFrom offset bytes with
  | case1 offset bytes hnone =>
    rw [instructions_sweepFrom_of_decode_none hnone]
    rfl
  | case2 offset bytes d hsome rest ih =>
    rw [sweepFrom_of_decode hsome, List.map_cons, ← ih, Nat.add_assoc]

/-- A sweep goes on from each boundary as if the bytes started there. -/
theorem filter_instructions_sweepFrom {offset : Nat} {bytes : List UInt8} {place : Nat}
    (h : place = offset ∨
      ∃ i ∈ (sweepFrom offset bytes).instructions, place = i.1 + i.2.length) :
    ((sweepFrom offset bytes).instructions.filter fun i => place ≤ i.1) =
      (sweepFrom place (bytes.drop (place - offset))).instructions := by
  fun_induction sweepFrom offset bytes with
  | case1 offset bytes hnone =>
    rcases h with rfl | ⟨i, hi, -⟩
    · rw [Nat.sub_self, List.drop_zero, instructions_sweepFrom_of_decode_none hnone]
      rfl
    · cases hi
  | case2 offset bytes d hsome rest ih =>
    by_cases hfront : place = offset
    · subst hfront
      rw [Nat.sub_self, List.drop_zero, sweepFrom_of_decode hsome, List.filter_eq_self]
      intro i hi
      rw [decide_eq_true_eq]
      rcases List.mem_cons.mp hi with rfl | hi
      · exact Nat.le_refl _
      · have hle := le_of_mem_sweepFrom hi
        omega
    · -- The boundary lies behind the first instruction.
      have hrest : place = offset + d.length ∨
          ∃ i ∈ rest.instructions, place = i.1 + i.2.length := by
        obtain ⟨i, hi, hplace⟩ := h.resolve_left hfront
        rcases List.mem_cons.mp hi with rfl | hi
        · exact .inl hplace
        · exact .inr ⟨i, hi, hplace⟩
      have hle : offset + d.length ≤ place := by
        rcases hrest with rfl | ⟨i, hi, hplace⟩
        · exact Nat.le_refl _
        · have hstart := le_of_mem_sweepFrom hi
          omega
      have hpos := decode_length_pos hsome
      have hhead : ¬ place ≤ offset := by omega
      have hdrop : d.length + (place - (offset + d.length)) = place - offset := by omega
      rw [List.filter_cons, if_neg (by rwa [decide_eq_true_eq]), ih hrest, List.drop_drop, hdrop]

theorem stoppedAt_sweep (bytes : List UInt8) :
    (sweep bytes).stoppedAt =
      if (sweep bytes).finish = bytes.length then none else some (sweep bytes).finish := by
  obtain ⟨stop, hwalk, -, -, hstopped⟩ := exists_walk_sweep bytes
  have hfinish : stop = (sweep bytes).finish := hwalk.stop_eq
  rw [hstopped, hfinish]

/-- The bytes between a boundary and a later offset are swept to what the whole sweep finds
there. -/
theorem instructions_sweep_extract {bytes : List UInt8} {start : Nat}
    (h : (sweep bytes).Boundary start) (count : Nat) :
    (sweep ((bytes.drop start).take count)).instructions =
      (sweep bytes).within start (start + count) := by
  have hboundary : start = 0 ∨
      ∃ i ∈ (sweepFrom 0 bytes).instructions, start = i.1 + i.2.length := by
    cases h with
    | front => exact .inl rfl
    | behind found => exact .inr ⟨_, found, rfl⟩
  have hlater := filter_instructions_sweepFrom hboundary
  have hmoved := instructions_sweepFrom_add start 0 (bytes.drop start)
  rw [Nat.add_zero] at hmoved
  rw [Nat.sub_zero, hmoved] at hlater
  have hback : ((fun i : Nat × Decoded => (i.1 - start, i.2)) ∘ fun i => (start + i.1, i.2)) =
      id := by
    funext i
    rw [Function.comp_apply, Nat.add_sub_cancel_left, id]
  calc (sweep ((bytes.drop start).take count)).instructions
      = (sweepFrom 0 (bytes.drop start)).instructions.filter
          fun i => i.1 + i.2.length ≤ 0 + count := instructions_sweepFrom_take 0 _ count
    _ = (sweepFrom 0 (bytes.drop start)).instructions.filter
          fun i => start + i.1 + i.2.length ≤ start + count := by
        apply List.filter_congr
        intro i _
        rw [decide_eq_decide]
        omega
    _ = ((((sweepFrom 0 (bytes.drop start)).instructions.map fun i => (start + i.1, i.2)).filter
          fun i => i.1 + i.2.length ≤ start + count).map fun i => (i.1 - start, i.2)) := by
        rw [List.filter_map, List.map_map, hback, List.map_id]
        rfl
    _ = (sweep bytes).within start (start + count) := by
        rw [← hlater, List.filter_filter, Sweep.within]
        congr 1
        apply List.filter_congr
        intro i _
        rw [Bool.decide_and, Bool.and_comm]

section
variable {bytes : List UInt8} {skip : Nat} {length : Option Nat}

theorem window_of_inside (hskip : skip ≤ bytes.length)
    (hlength : ∀ n, length = some n → n ≤ bytes.length - skip) :
    window bytes skip length =
      .ok ((bytes.drop skip).take (length.getD (bytes.length - skip))) := by
  rw [window, if_neg (Nat.not_lt_of_le hskip)]
  cases length with
  | none => rw [Option.getD_none, ← List.length_drop, List.take_length]
  | some n =>
    have hfits : ¬ (bytes.drop skip).length < n := by
      rw [List.length_drop]
      exact Nat.not_lt_of_le (hlength n rfl)
    simp only [hfits, ↓reduceIte, Option.getD_some]

theorem window_of_outside
    (h : bytes.length < skip ∨ ∃ n, length = some n ∧ bytes.length - skip < n) :
    ∃ fault, window bytes skip length = .error fault := by
  by_cases hskip : bytes.length < skip
  · exact ⟨_, by rw [window, if_pos hskip]⟩
  · obtain ⟨n, rfl, hn⟩ := h.resolve_left hskip
    rw [← List.length_drop] at hn
    refine ⟨.lengthTooLarge n (bytes.drop skip).length, ?_⟩
    simp only [window, if_neg hskip, if_pos hn]

end

namespace Tool.Disassembler

theorem runOn_load_of_read {σ : Type} {files : FileSystem σ} {s : σ} {path : Text}
    {bytes : List UInt8} (hread : files.read s path = .ok bytes) (skip : Nat)
    (length : Option Nat) :
    ((load path skip length).runOn files s).1 =
      (window bytes skip length).mapError fun fault => { message := fault.message } := by
  simp only [load, Plan.runOn, hread]
  cases window bytes skip length <;> rfl

/-- A window of a file is loaded unless it starts or ends behind the file, and it holds the bytes
that are asked for, all up to the end when no length is given. If it starts at the front or where an
instruction of the file ends, its sweep finds the instructions of the file that lie in it as a
whole, in order and with their places counted from its start. The sweep stops behind the last of
them, unless that is where the window ends. -/
theorem load_sweep {σ : Type} {files : FileSystem σ} {s : σ} {path : Text} {bytes : List UInt8}
    (hread : files.read s path = .ok bytes) (skip : Nat) (length : Option Nat) :
    let answer := ((load path skip length).runOn files s).1
    ((∃ failure, answer = .error failure) ↔
      bytes.length < skip ∨ ∃ n, length = some n ∧ bytes.length - skip < n) ∧
    ∀ w, answer = .ok w →
      w.length = length.getD (bytes.length - skip) ∧
      w = bytes.extract skip (skip + w.length) ∧
      ((sweep bytes).Boundary skip →
        let inside := (sweep bytes).within skip (skip + w.length)
        let reached := inside.getLast?.elim 0 fun i => i.1 + i.2.length
        (sweep w).instructions = inside ∧
        (sweep w).stoppedAt = if reached = w.length then none else some reached) := by
  intro answer
  have hanswer : answer = _ := runOn_load_of_read hread skip length
  by_cases hbad : bytes.length < skip ∨ ∃ n, length = some n ∧ bytes.length - skip < n
  · obtain ⟨fault, hfault⟩ := window_of_outside hbad
    rw [hfault] at hanswer
    rw [hanswer]
    exact ⟨⟨fun _ => hbad, fun _ => ⟨_, rfl⟩⟩, nofun⟩
  · obtain ⟨hskip, hlength⟩ := not_or.mp hbad
    have hfits : ∀ n, length = some n → n ≤ bytes.length - skip :=
      fun n hn => Nat.le_of_not_lt fun hlt => hlength ⟨n, hn, hlt⟩
    rw [window_of_inside (Nat.le_of_not_lt hskip) hfits] at hanswer
    rw [hanswer]
    refine ⟨⟨fun h => ?_, fun h => absurd h hbad⟩, fun w hw => ?_⟩
    · obtain ⟨failure, hfailure⟩ := h
      cases hfailure
    · obtain rfl := Except.ok.inj hw
      have hcount : ((bytes.drop skip).take (length.getD (bytes.length - skip))).length =
          length.getD (bytes.length - skip) := by
        apply List.length_take_of_le
        rw [List.length_drop]
        cases length with
        | none => exact Nat.le_refl _
        | some n => exact hfits n rfl
      rw [hcount]
      refine ⟨rfl, ?_, fun hboundary => ?_⟩
      · rw [List.extract_eq_take_drop, Nat.add_sub_cancel_left]
      · have hinside := instructions_sweep_extract hboundary (length.getD (bytes.length - skip))
        refine ⟨hinside, ?_⟩
        rw [stoppedAt_sweep, Sweep.finish, hinside, hcount]

theorem load_sweep_of_cut_window :
    let bytes : List UInt8 := [0xCA, 0x29, 0x02, 0x00, 0x9C, 0x0C, 0x01, 0xAF, 0xC7, 0x01, 0x00]
    let disk : Disk := Disk.fresh.install ["srv", "code"] (.file bytes)
    let w : List UInt8 := [0x9C, 0x0C, 0x01, 0xAF]
    Disk.files.read disk "/srv/code" = .ok bytes ∧ (sweep bytes).Boundary 4 ∧
      ((load "/srv/code" 4 (some 4)).runOn Disk.files disk).1 = .ok w ∧
      (sweep w).instructions = [(0, ⟨.read, 268, 3⟩)] ∧ (sweep w).stoppedAt = some 3 ∧
      ∃ failure, ((load "/srv/code" 4 (some 8)).runOn Disk.files disk).1 = .error failure := by
  intro bytes disk w
  have hread : Disk.files.read disk "/srv/code" = .ok bytes := by decide +kernel
  have hall : sweep bytes =
      ⟨[(0, ⟨.load, 553, 4⟩), (4, ⟨.read, 268, 3⟩), (7, ⟨.sub, 455, 4⟩)], none⟩ := by cbv
  have hfirst : (0, ⟨.load, 553, 4⟩) ∈ (sweep bytes).instructions := by
    rw [hall]
    exact List.mem_cons_self
  have hboundary : (sweep bytes).Boundary 4 := .behind hfirst
  have hload : ((load "/srv/code" 4 (some 4)).runOn Disk.files disk).1 = .ok w := by
    rw [runOn_load_of_read hread]
    rfl
  obtain ⟨-, hwindow⟩ := load_sweep hread 4 (some 4)
  obtain ⟨-, -, hsweep⟩ := hwindow w hload
  obtain ⟨hinstructions, hstopped⟩ := hsweep hboundary
  have hinside : (sweep bytes).within 4 (4 + w.length) = [(0, ⟨.read, 268, 3⟩)] := by
    rw [hall]
    rfl
  rw [hinside] at hinstructions hstopped
  refine ⟨hread, hboundary, hload, hinstructions, hstopped, ?_⟩
  exact (load_sweep hread 4 (some 8)).1.mpr (.inr ⟨8, rfl, by decide⟩)

end Tool.Disassembler

end Uvm
