import DistributedOs.Semantics.Codec
import DistributedOs.Semantics.Execution

/-! The pool of buffers. Each call takes the lock of the pool once, so it is one step. -/

namespace DistributedOs.Engine

open Semantics

structure BufferPool where
  buffers : List Bytes
  chunkSize : Nat
  maxPooled : Nat

inductive PoolCall where
  | acquire
  | release (buf : Bytes)

namespace BufferPool

def new (chunkSize maxPooled : Nat) : BufferPool := { buffers := [], chunkSize, maxPooled }

def acquire (pool : BufferPool) : Bytes × BufferPool :=
  match pool.buffers.getLast? with
  | some buf => (buf, { pool with buffers := pool.buffers.dropLast })
  | none => (List.replicate pool.chunkSize 0, pool)

/-- `clear` truncates to no bytes at all. -/
def release (pool : BufferPool) (buf : Bytes) : BufferPool :=
  let buf := buf.take 0
  if pool.buffers.length < pool.maxPooled then { pool with buffers := pool.buffers ++ [buf] } else pool

def step (pool : BufferPool) : PoolCall → Option BufferPool
  | .acquire => some pool.acquire.2
  | .release buf => some (pool.release buf)

/-- What is handed out has the size of a chunk, and no more is kept than may be. -/
def Serves (pool : BufferPool) (call : PoolCall) (after : BufferPool) : Prop :=
  (call = .acquire → pool.acquire.1.length = pool.chunkSize) ∧ after.buffers.length ≤ after.maxPooled

def unpooled (pool : BufferPool) (call : PoolCall) : Prop :=
  call = .acquire → pool.buffers = [] ∨ pool.chunkSize = 0

structure Cleared (pool : BufferPool) : Prop where
  empty : ∀ buf ∈ pool.buffers, buf = []
  bounded : pool.buffers.length ≤ pool.maxPooled

variable {pool after : BufferPool} {call : PoolCall} {chunkSize maxPooled : Nat}

theorem Cleared.new (chunkSize maxPooled : Nat) : Cleared (.new chunkSize maxPooled) :=
  ⟨nofun, Nat.zero_le _⟩

theorem Cleared.acquire (cleared : Cleared pool) : Cleared pool.acquire.2 := by
  unfold BufferPool.acquire
  split
  · have fewer : pool.buffers.dropLast.length ≤ pool.buffers.length := by
      rw [List.length_dropLast]
      exact Nat.sub_le _ _
    exact ⟨fun buf kept => cleared.empty buf (List.dropLast_subset _ kept),
      Nat.le_trans fewer cleared.bounded⟩
  · exact cleared

theorem Cleared.release (cleared : Cleared pool) (buf : Bytes) : Cleared (pool.release buf) := by
  unfold BufferPool.release
  split
  · rename_i room
    refine ⟨?_, ?_⟩
    · intro other member
      rcases List.mem_append.mp member with before | fresh
      · exact cleared.empty other before
      · rw [List.mem_singleton.mp fresh, List.take_zero]
    · rw [List.length_append, List.length_singleton]
      exact room
  · exact cleared

theorem Cleared.step (cleared : Cleared pool) (taken : pool.step call = some after) :
    Cleared after := by
  cases call with
  | acquire =>
    cases taken
    exact cleared.acquire
  | release buf =>
    cases taken
    exact cleared.release buf

theorem length_acquire_iff (cleared : Cleared pool) :
    pool.acquire.1.length = pool.chunkSize ↔ pool.buffers = [] ∨ pool.chunkSize = 0 := by
  unfold acquire
  split
  · rename_i buf last
    have member := List.mem_of_getLast? last
    rw [cleared.empty buf member, List.length_nil]
    constructor
    · exact fun same => .inr same.symm
    · rintro (none | zero)
      · rw [none] at member
        cases member
      · exact zero.symm
  · rename_i none
    exact iff_of_true List.length_replicate (.inl (List.getLast?_eq_none_iff.mp none))

/-- A run of calls is served throughout exactly when no call asks for a buffer while one is pooled. -/
theorem serves_iff {calls : List PoolCall}
    (run : Execution step anything (.new chunkSize maxPooled) calls after) :
    EveryStep step Serves (.new chunkSize maxPooled) calls ↔
      Execution step unpooled (.new chunkSize maxPooled) calls after := by
  refine run.everyStep_iff Cleared (.new chunkSize maxPooled)
    (fun _ _ _ cleared taken => cleared.step taken) ?_
  intro _ _ _ cleared taken
  rw [Serves, and_iff_left (cleared.step taken).bounded]
  exact imp_congr_right fun _ => length_acquire_iff cleared

/-- A buffer out, filled and back. -/
theorem serves_first : EveryStep step Serves (.new 4 2) [.acquire, .release [1, 2, 3, 4]] := by
  refine (serves_iff (.next trivial rfl (.next trivial rfl .done))).mpr
    (.next ?_ rfl (.next ?_ rfl .done))
  · exact fun _ => .inl rfl
  · nofun

/-- The same buffer again has no bytes. -/
theorem second_unserved :
    ¬ EveryStep step Serves (.new 4 2) [.acquire, .release [1, 2, 3, 4], .acquire] := by
  intro served
  have last := ((served.tail rfl).tail rfl).head rfl
  exact absurd (last.1 rfl) (by decide)

end BufferPool

end DistributedOs.Engine
