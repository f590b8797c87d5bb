import Flannel.Transition.Core
import Mathlib.Data.List.Perm.Basic

/-!
# The buffers of the packet pump

`tunBufferPool` and the goroutines that pass its buffers on: the reader of the TUN device, the
queue `outbound`, and the writer of each session.
-/

namespace Flannel.Mesh

open Transition

def tunHeadroom : Nat :=
  1

def outboundQueueDepth : Nat :=
  256

structure Slice where
  array : Nat
  length : Nat
  capacity : Nat
  fits : length ≤ capacity

def Slice.upTo (buf : Slice) (n : Nat) : Option Slice :=
  if fits : n ≤ buf.capacity then some ⟨buf.array, n, buf.capacity, fits⟩ else none

def Slice.whole (buf : Slice) : Nat × Nat :=
  (buf.array, buf.capacity)

def newTUNBufferPool (count mtu : Nat) : List Slice :=
  (List.range count).map fun array => ⟨array, mtu + tunHeadroom, mtu + tunHeadroom, le_rfl⟩

def TunBufferPool.get (mtu : Nat) : List Slice → Option (Slice × List Slice)
  | [] => none
  | buf :: free => (buf.upTo (mtu + tunHeadroom)).map (·, free)

def TunBufferPool.put (count mtu : Nat) (free : List Slice) (buf : Slice) : List Slice :=
  match buf.upTo (mtu + tunHeadroom) with
  | none => free
  | some full => if free.length < count then free ++ [full] else free

inductive Reader
  | getting
  | reading (buf : Slice)
  /-- The buffer, and the slice of it to send. -/
  | sending (buf packet : Slice)
  /-- A slice exceeded the buffer. -/
  | panicked (buf : Slice)
  | returned

inductive Writer
  | absent
  | selecting
  | writing (packet : Slice)
  | returned

structure Pumps where
  free : List Slice
  reader : Reader
  outbound : List Slice
  /-- `outbound` is closed. -/
  closed : Bool
  writer : Writer
  /-- `ctx` is cancelled. -/
  cancelled : Bool
  /-- `sessionCtx` is cancelled. -/
  sessionCancelled : Bool

inductive PumpEvent
  | get
  | getCancelled
  | read (n : Nat)
  | readFailed
  | send
  | sendCancelled
  | cancel
  | startSession
  /-- `runSession` has an error of one of the pumps. -/
  | cancelSession
  | endSession
  | receive
  | receiveCancelled
  | receiveClosed
  /-- Results of `WritePacketBuffer`, its error and the length of the reply, and the error
  of writing the reply. -/
  | write (failed : Bool) (icmp : Nat) (replyFailed : Bool)

def Pumps.initial (count mtu : Nat) : Pumps :=
  ⟨newTUNBufferPool count mtu, .getting, [], false, .absent, false, false⟩

def Pumps.step (count mtu : Nat) (pumps : Pumps) (event : PumpEvent) : Option Pumps :=
  match event, pumps.reader, pumps.writer with
  | .get, .getting, _ => (TunBufferPool.get mtu pumps.free).map fun (buf, free) =>
    { pumps with free := free, reader := .reading buf }
  | .getCancelled, .getting, _ =>
    if pumps.cancelled then some { pumps with reader := .returned } else none
  | .read n, .reading buf, _ =>
    match buf.upTo (tunHeadroom + n) with
    | some packet => some { pumps with reader := .sending buf packet }
    | none => some { pumps with reader := .panicked buf }
  | .readFailed, .reading buf, _ =>
    some { pumps with free := TunBufferPool.put count mtu pumps.free buf, closed := true, reader := .returned }
  | .send, .sending _ packet, _ =>
    if pumps.outbound.length < outboundQueueDepth then
      some { pumps with outbound := pumps.outbound ++ [packet], reader := .getting }
    else none
  | .sendCancelled, .sending buf _, _ =>
    if pumps.cancelled then
      some { pumps with free := TunBufferPool.put count mtu pumps.free buf, reader := .returned }
    else none
  | .cancel, _, _ => some { pumps with cancelled := true }
  | .startSession, _, .absent => some { pumps with writer := .selecting, sessionCancelled := false }
  | .cancelSession, _, .absent => none
  | .cancelSession, _, _ => some { pumps with sessionCancelled := true }
  -- `pumps.Wait`
  | .endSession, _, .returned => some { pumps with writer := .absent }
  | .receive, _, .selecting =>
    match pumps.outbound with
    | packet :: outbound => some { pumps with outbound := outbound, writer := .writing packet }
    | [] => none
  | .receiveCancelled, _, .selecting =>
    if pumps.cancelled || pumps.sessionCancelled then some { pumps with writer := .returned } else none
  | .receiveClosed, _, .selecting =>
    if pumps.closed ∧ pumps.outbound = [] then some { pumps with writer := .returned } else none
  | .write failed icmp replyFailed, _, .writing packet =>
    let err := failed || (0 < icmp && replyFailed)
    some { pumps with
      free := TunBufferPool.put count mtu pumps.free packet
      writer := if err then .returned else .selecting }
  | _, _, _ => none

def Reader.holds : Reader → List Slice
  | .reading buf | .sending buf _ | .panicked buf => [buf]
  | .getting | .returned => []

def Writer.holds : Writer → List Slice
  | .writing packet => [packet]
  | .absent | .selecting | .returned => []

def Pumps.buffers (pumps : Pumps) : List Slice :=
  pumps.free ++ (pumps.reader.holds ++ (pumps.outbound ++ pumps.writer.holds))

structure Pumps.Conserved (count mtu : Nat) (pumps : Pumps) : Prop where
  arrays : (pumps.buffers.map Slice.whole).Perm ((newTUNBufferPool count mtu).map Slice.whole)
  packet : ∀ buf packet, pumps.reader = .sending buf packet → packet.whole = buf.whole

theorem Slice.whole_of_upTo {buf part : Slice} {n : Nat} (sliced : buf.upTo n = some part) :
    part.whole = buf.whole ∧ part.length = n := by
  unfold Slice.upTo at sliced
  split at sliced
  · cases sliced
    exact ⟨rfl, rfl⟩
  · cases sliced

section Owned

variable {count mtu : Nat} {pumps : Pumps} (conserved : pumps.Conserved count mtu)
include conserved

theorem Pumps.Conserved.upTo {buf : Slice} (mem : buf ∈ pumps.buffers) :
    ∃ full, buf.upTo (mtu + tunHeadroom) = some full ∧ full.whole = buf.whole ∧
      full.length = mtu + tunHeadroom := by
  have created := conserved.arrays.mem_iff.mp (List.mem_map_of_mem (f := Slice.whole) mem)
  obtain ⟨original, isNew, same⟩ := List.mem_map.mp created
  obtain ⟨array, -, rfl⟩ := List.mem_map.mp isNew
  have capacity : mtu + tunHeadroom = buf.capacity := congrArg Prod.snd same
  obtain ⟨full, sliced⟩ : ∃ full, buf.upTo (mtu + tunHeadroom) = some full :=
    ⟨_, dif_pos capacity.le⟩
  exact ⟨full, sliced, Slice.whole_of_upTo sliced⟩

theorem Pumps.Conserved.put_eq {buf : Slice}
    (held : buf ∈ pumps.reader.holds ++ (pumps.outbound ++ pumps.writer.holds)) :
    ∃ full, buf.upTo (mtu + tunHeadroom) = some full ∧ full.whole = buf.whole ∧
      TunBufferPool.put count mtu pumps.free buf = pumps.free ++ [full] := by
  obtain ⟨full, sliced, whole, -⟩ := conserved.upTo (List.mem_append_right pumps.free held)
  have total := conserved.arrays.length_eq
  have positive := List.length_pos_of_mem held
  simp only [Pumps.buffers, newTUNBufferPool, List.length_map, List.length_append,
    List.length_range] at total positive
  refine ⟨full, sliced, whole, ?_⟩
  simp only [TunBufferPool.put, sliced]
  exact if_pos (by omega)

theorem Pumps.Conserved.of_count {pumps' : Pumps}
    (same : ∀ array, (pumps'.buffers.map Slice.whole).count array =
      (pumps.buffers.map Slice.whole).count array)
    (packet : ∀ buf packet, pumps'.reader = .sending buf packet → packet.whole = buf.whole) :
    pumps'.Conserved count mtu :=
  ⟨(List.perm_iff_count.mpr same).trans conserved.arrays, packet⟩

theorem Pumps.Conserved.step {pumps' : Pumps} {event : PumpEvent}
    (stepped : pumps.step count mtu event = some pumps') : pumps'.Conserved count mtu := by
  unfold Pumps.step at stepped
  split at stepped
  · next isReader =>
    cases isFree : pumps.free with
    | nil => simp [isFree, TunBufferPool.get] at stepped
    | cons buf free =>
      obtain ⟨full, sliced, whole, -⟩ := @upTo _ _ _ conserved buf (by simp [buffers, isFree])
      simp only [isFree, TunBufferPool.get, sliced, Option.map_some, Option.some.injEq] at stepped
      subst stepped
      refine conserved.of_count (fun array => ?_) (by simp)
      simp only [buffers, isFree, isReader, Reader.holds, List.map_append, List.map_cons,
        List.count_append, List.count_cons, whole]
      simp
      omega
  · next isReader =>
    split at stepped <;> cases stepped
    exact conserved.of_count (by simp [buffers, isReader, Reader.holds]) (by simp)
  · next n buf isReader =>
    split at stepped <;> cases stepped
    · next packet sliced =>
      refine conserved.of_count (by simp [buffers, isReader, Reader.holds]) ?_
      rintro buf' packet' ⟨⟩
      exact (Slice.whole_of_upTo sliced).1
    · exact conserved.of_count (by simp [buffers, isReader, Reader.holds]) (by simp)
  · next buf isReader =>
    cases stepped
    obtain ⟨full, -, whole, isPut⟩ := @put_eq _ _ _ conserved buf (by simp [isReader, Reader.holds])
    refine conserved.of_count (fun array => ?_) (by simp)
    simp [buffers, isReader, Reader.holds, isPut, whole]
  · next buf packet isReader =>
    have whole := conserved.packet buf packet isReader
    split at stepped <;> cases stepped
    refine conserved.of_count (fun array => ?_) (by simp)
    simp [buffers, isReader, Reader.holds, whole, List.count_cons]
    omega
  · next buf packet isReader =>
    obtain ⟨full, -, whole, isPut⟩ := @put_eq _ _ _ conserved buf (by simp [isReader, Reader.holds])
    split at stepped <;> cases stepped
    refine conserved.of_count (fun array => ?_) (by simp)
    simp [buffers, isReader, Reader.holds, isPut, whole]
  · cases stepped
    exact ⟨conserved.arrays, conserved.packet⟩
  · next isWriter =>
    cases stepped
    exact conserved.of_count (by simp [buffers, isWriter, Writer.holds]) conserved.packet
  · cases stepped
  · cases stepped
    exact ⟨conserved.arrays, conserved.packet⟩
  · next isWriter =>
    cases stepped
    exact conserved.of_count (by simp [buffers, isWriter, Writer.holds]) conserved.packet
  · next isWriter =>
    split at stepped <;> cases stepped
    next packet outbound isOutbound =>
    refine conserved.of_count (fun array => ?_) conserved.packet
    simp [buffers, isWriter, Writer.holds, isOutbound, List.count_cons]
  · next isWriter =>
    split at stepped <;> cases stepped
    exact conserved.of_count (by simp [buffers, isWriter, Writer.holds]) conserved.packet
  · next isWriter =>
    split at stepped <;> cases stepped
    exact conserved.of_count (by simp [buffers, isWriter, Writer.holds]) conserved.packet
  · next packet isWriter =>
    have held : pumps.writer.holds = [packet] := by rw [isWriter]; rfl
    have empty : ∀ err, (if err = true then Writer.returned else .selecting).holds = [] := by
      rintro (_ | _) <;> rfl
    obtain ⟨full, -, whole, isPut⟩ := @put_eq _ _ _ conserved packet (by simp [held])
    cases stepped
    refine conserved.of_count (fun array => ?_) conserved.packet
    simp only [buffers, held, isPut, empty, List.map_append, List.map_cons, whole, List.count_append]
    simp
    omega
  · cases stepped

end Owned

/-- Every buffer of the pool is at one place, `put` keeps a buffer that it is given, and
`get` gives out a buffer of full length. -/
theorem buffers_conserved {count mtu : Nat} {events : List PumpEvent} {pumps : Pumps}
    (reached : run (Pumps.step count mtu) (Pumps.initial count mtu) events = some pumps) :
    (pumps.buffers.map Slice.array).Perm (List.range count) ∧
    (∀ buf ∈ pumps.reader.holds ++ pumps.writer.holds,
      ∃ full, full.array = buf.array ∧ TunBufferPool.put count mtu pumps.free buf = pumps.free ++ [full]) ∧
    ∀ buf free, pumps.free = buf :: free →
      ∃ full, TunBufferPool.get mtu pumps.free = some (full, free) ∧ full.array = buf.array ∧
        full.length = mtu + tunHeadroom := by
  have conserved : pumps.Conserved count mtu := by
    refine invariant_of_run (fun _ _ _ conserved stepped => conserved.step stepped) ?_ reached
    exact ⟨by simp [Pumps.initial, Pumps.buffers, Reader.holds, Writer.holds], by simp [Pumps.initial]⟩
  refine ⟨?_, fun buf held => ?_, fun buf free isFree => ?_⟩
  · have arrays := conserved.arrays.map Prod.fst
    simpa [newTUNBufferPool, Slice.whole, Function.comp_def] using arrays
  · have listed : buf ∈ pumps.reader.holds ++ (pumps.outbound ++ pumps.writer.holds) := by
      simp only [List.mem_append] at held ⊢
      exact held.imp_right .inr
    obtain ⟨full, -, whole, isPut⟩ := conserved.put_eq listed
    exact ⟨full, congrArg Prod.fst whole, isPut⟩
  · have mem : buf ∈ pumps.buffers := by simp [Pumps.buffers, isFree]
    obtain ⟨full, sliced, whole, length⟩ := conserved.upTo mem
    exact ⟨full, by rw [isFree, TunBufferPool.get, sliced]; rfl, congrArg Prod.fst whole, length⟩

theorem buffers_conserved_of_two : ∃ pumps, run (Pumps.step 2 3) (Pumps.initial 2 3)
    [.get, .read 2, .send, .startSession, .get, .receive, .read 3, .write false 1 true, .cancel,
      .sendCancelled, .endSession, .startSession] = some pumps ∧
    (pumps.buffers.map Slice.array).Perm (List.range 2) := by
  refine ⟨_, rfl, ?_⟩
  exact (@buffers_conserved 2 3 [.get, .read 2, .send, .startSession, .get, .receive, .read 3,
    .write false 1 true, .cancel, .sendCancelled, .endSession, .startSession] _ rfl).1

end Flannel.Mesh
