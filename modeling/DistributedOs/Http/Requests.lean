import DistributedOs.Reliable.Frame

/-! The requests `upload_single_file` and `upload_parallel` send to `/api/receive-file`. -/

namespace DistributedOs.Http

open Semantics Reliable

def isUnreserved (byte : UInt8) : Bool :=
  (65 ≤ byte && byte ≤ 90) || (97 ≤ byte && byte ≤ 122) || (48 ≤ byte && byte ≤ 57) ||
    byte = 45 || byte = 95 || byte = 46 || byte = 126

/-- An upper-case hexadecimal digit. -/
def hexDigit (digit : UInt8) : Char :=
  if digit < 10 then Char.ofNat (48 + digit.toNat) else Char.ofNat (55 + digit.toNat)

def urlencodeByte (byte : UInt8) : List Char :=
  if isUnreserved byte then [Char.ofNat byte.toNat]
  else if byte = 32 then ['+']
  else ['%', hexDigit (byte / 16), hexDigit (byte % 16)]

def urlencode (name : String) : String := String.ofList ((utf8 name).flatMap urlencodeByte)

/-- The headers the receivers look at, and the body; its length is the `Content-Length`. -/
structure UploadRequest where
  filename : String
  offset : Option Nat
  totalSize : Option Nat
  content : Bytes
  deriving DecidableEq

def UploadRequest.start (request : UploadRequest) : Nat := request.offset.getD 0

/-- The range of the file a request carries: where it starts and how long it is. -/
def UploadRequest.range (request : UploadRequest) : Nat × Nat :=
  (request.start, request.content.length)

def uploadSingleFile (displayName : String) (file : Bytes) : List UploadRequest :=
  [{ filename := urlencode displayName, offset := none, totalSize := none, content := file }]

def parallelStreams (numStreams : Nat) : Nat := min (max numStreams 1) 32

/-- The part of stream `index`; a stream without bytes sends nothing. The arithmetic stays
below the file size, so it is exact in 64 bits. -/
def parallelPart (displayName : String) (file : Bytes) (streams index : Nat) :
    Option UploadRequest :=
  let chunkSizeEach := file.length / streams
  let startByte := index * chunkSizeEach
  let endByte := if index = streams - 1 then file.length else (index + 1) * chunkSizeEach
  if endByte ≤ startByte then none
  else some { filename := urlencode displayName
              offset := some startByte
              totalSize := some file.length
              content := (file.drop startByte).take (endByte - startByte) }

def uploadParallel (displayName : String) (file : Bytes) (numStreams : Nat) : List UploadRequest :=
  (List.range (parallelStreams numStreams)).filterMap
    (parallelPart displayName file (parallelStreams numStreams))

inductive Tiled (size : Nat) : Nat → List (Nat × Nat) → Prop where
  | done : Tiled size size []
  | next (nonempty : 0 < length) (rest : Tiled size (start + length) ranges) :
      Tiled size start ((start, length) :: ranges)

/-- The request carries what stands at its range in the file, and announces its size. -/
structure UploadRequest.Carries (file : Bytes) (request : UploadRequest) : Prop where
  content : request.content = (file.drop request.start).take request.content.length
  within : request.start + request.content.length ≤ file.length
  nonempty : 0 < request.content.length
  total : request.totalSize = some file.length

variable {file : Bytes} {displayName : String} {request : UploadRequest} {size start : Nat}

theorem parallelStreams_pos (numStreams : Nat) : 0 < parallelStreams numStreams := by
  unfold parallelStreams
  omega

/-- Where the part of stream `index` begins; past the last stream, the end of the file. -/
def boundary (file : Bytes) (streams index : Nat) : Nat :=
  if index = streams then file.length else index * (file.length / streams)

theorem boundary_le (within : index ≤ streams) :
    boundary file streams index ≤ file.length := by
  unfold boundary
  split
  · exact Nat.le_refl _
  · exact (Nat.mul_le_mul_right _ within).trans (Nat.mul_div_le _ _)

theorem boundary_mono (within : index < streams) :
    boundary file streams index ≤ boundary file streams (index + 1) := by
  rw [boundary, if_neg (by omega), boundary]
  split
  · exact (Nat.mul_le_mul_right _ (Nat.le_of_lt within)).trans (Nat.mul_div_le _ _)
  · exact Nat.mul_le_mul_right _ (Nat.le_succ _)

theorem parallelPart_eq {streams index : Nat} (within : index < streams) :
    parallelPart displayName file streams index =
      if boundary file streams (index + 1) ≤ boundary file streams index then none
      else some { filename := urlencode displayName
                  offset := some (boundary file streams index)
                  totalSize := some file.length
                  content := (file.drop (boundary file streams index)).take
                    (boundary file streams (index + 1) - boundary file streams index) } := by
  have first : boundary file streams index = index * (file.length / streams) := if_neg (by omega)
  have next : boundary file streams (index + 1) =
      if index = streams - 1 then file.length else (index + 1) * (file.length / streams) := by
    by_cases last : index = streams - 1
    · rw [if_pos last, boundary, if_pos (by omega)]
    · rw [if_neg last, boundary, if_neg (by omega)]
  rw [first, next, parallelPart]

theorem length_part (within : index < streams) :
    ((file.drop (boundary file streams index)).take
      (boundary file streams (index + 1) - boundary file streams index)).length =
      boundary file streams (index + 1) - boundary file streams index := by
  have top : boundary file streams (index + 1) ≤ file.length := boundary_le within
  simp only [List.length_take, List.length_drop]
  omega

theorem tiled_from {streams remaining index : Nat} (whole : index + remaining = streams) :
    Tiled file.length (boundary file streams index)
      (((List.range' index remaining).filterMap (parallelPart displayName file streams)).map
        UploadRequest.range) := by
  induction remaining generalizing index with
  | zero =>
    rw [boundary, if_pos (by omega)]
    exact .done
  | succ _ ih =>
    have rest := @ih (index + 1) (by omega)
    have ordered : boundary file streams index ≤ boundary file streams (index + 1) :=
      boundary_mono (by omega)
    rw [List.range'_succ, List.filterMap_cons, parallelPart_eq (by omega)]
    by_cases empty : boundary file streams (index + 1) ≤ boundary file streams index
    · rw [if_pos empty]
      have same : boundary file streams index = boundary file streams (index + 1) := by omega
      rw [same]
      exact rest
    · rw [if_neg empty]
      simp only [List.map_cons, UploadRequest.range, UploadRequest.start, Option.getD_some]
      rw [length_part (by omega)]
      refine .next (by omega) ?_
      rw [Nat.add_sub_cancel' ordered]
      exact rest

theorem uploadParallel_tiled (displayName : String) (file : Bytes) (numStreams : Nat) :
    Tiled file.length 0 ((uploadParallel displayName file numStreams).map UploadRequest.range) := by
  have tiled := @tiled_from file displayName _ _ 0 (Nat.zero_add (parallelStreams numStreams))
  have positive := parallelStreams_pos numStreams
  rw [boundary, if_neg (by omega), Nat.zero_mul, ← List.range_eq_range'] at tiled
  exact tiled

theorem uploadParallel_carries (member : request ∈ uploadParallel displayName file numStreams) :
    request.Carries file := by
  obtain ⟨index, within, part⟩ := List.mem_filterMap.mp member
  have before := List.mem_range.mp within
  rw [parallelPart_eq before] at part
  split at part
  · cases part
  · cases part
    have top : boundary file (parallelStreams numStreams) (index + 1) ≤ file.length := boundary_le before
    have ordered : boundary file (parallelStreams numStreams) index ≤ _ := boundary_mono before
    refine ⟨?_, ?_, ?_, rfl⟩
    · rw [length_part before]
      rfl
    · rw [length_part before]
      simp only [UploadRequest.start, Option.getD_some]
      omega
    · rw [length_part before]
      omega

theorem uploadParallel_filename (member : request ∈ uploadParallel displayName file numStreams) :
    request.filename = urlencode displayName := by
  obtain ⟨_, within, part⟩ := List.mem_filterMap.mp member
  rw [parallelPart_eq (List.mem_range.mp within)] at part
  split at part
  · cases part
  · cases part
    rfl

theorem uploadParallel_empty : uploadParallel displayName [] numStreams = [] := by
  apply List.eq_nil_iff_forall_not_mem.mpr
  intro _ member
  have carries := uploadParallel_carries member
  have within := carries.within
  have nonempty := carries.nonempty
  rw [List.length_nil] at within
  omega

theorem Tiled.covers (tiled : Tiled size start ranges)
    (after : start ≤ position) (before : position < size) :
    ∃ range ∈ ranges, range.1 ≤ position ∧ position < range.1 + range.2 := by
  induction tiled with
  | done => omega
  | @next length start _ _ _ ih =>
    by_cases here : position < start + length
    · exact ⟨(start, length), List.mem_cons_self, after, here⟩
    · obtain ⟨range, member, lower, upper⟩ := ih (by omega)
      exact ⟨range, List.mem_cons_of_mem _ member, lower, upper⟩

theorem Tiled.first (tiled : Tiled size start ranges) (nonempty : start < size) :
    ∃ length, (start, length) ∈ ranges := by
  cases tiled with
  | done => omega
  | next => exact ⟨_, List.mem_cons_self⟩

end DistributedOs.Http
