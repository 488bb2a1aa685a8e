import DistributedOs.Http.Names
import Mathlib.Data.List.Induction

/-! The three receivers side by side on the requests of one upload. -/

namespace DistributedOs.Http

open Semantics Reliable

inductive Upload where
  | single
  | parallel (numStreams : Nat)
  deriving DecidableEq

def Upload.requests (displayName : String) (file : Bytes) : Upload → List UploadRequest
  | .single => uploadSingleFile displayName file
  | .parallel numStreams => uploadParallel displayName file numStreams

/-- A receiver answers the requests one after the other; nothing unless all of them succeed. -/
def receiveAll (receive : Folder → UploadRequest → Option (Folder × String)) (folder : Folder) :
    List UploadRequest → Option (Folder × List String)
  | [] => some (folder, [])
  | request :: requests =>
    (receive folder request).bind fun (folder, name) =>
      (receiveAll receive folder requests).map fun (folder, names) => (folder, name :: names)

/-- The upload is stored as one file of this name: every answer names it, it holds the
source, and the other files are as before. -/
structure StoredAs (file : Bytes) (before after : Files) (names : List String)
    (name : String) : Prop where
  answered : names ≠ []
  named : ∀ saved ∈ names, saved = name
  stored : after.lookup name = some file
  others : ∀ other, other ≠ name → after.lookup other = before.lookup other

/-- The download directories of the three receivers. -/
structure Directories where
  dashboard : Folder
  android : Folder
  nio : Folder

/-- All three store the upload as one file of one name. -/
def EndAlike (file : Bytes) (before after : Directories)
    (dashboard android nio : List String) : Prop :=
  ∃ name, StoredAs file before.dashboard.files after.dashboard.files dashboard name ∧
    StoredAs file before.android.files after.android.files android name ∧
    StoredAs file before.nio.files after.nio.files nio name

def Upload.OneRequest (file : Bytes) : Upload → Prop
  | .single => True
  | .parallel numStreams =>
    file ≠ [] ∧ (parallelStreams numStreams = 1 ∨ file.length < parallelStreams numStreams)

/-- What the dashboard's file holds after the one request, before any extraction. -/
def Upload.leaves (file old : Bytes) : Upload → Bytes
  | .single => file ++ old.drop file.length
  | .parallel _ => file

/-- The files of the directory that the entries of the archive `name` lead to, up to the first
entry that fails, and what each of them holds. -/
def placed (downloads : Path) (name : String) : List Extraction → List (String × Bytes)
  | [] => []
  | entry :: entries =>
    if !entry.made then []
    else
      match entry.target downloads name with
      | some target =>
        (target, entry.content) :: (if entry.intact then placed downloads name entries else [])
      | none => if isDirEntry entry.name || entry.intact then placed downloads name entries else []

/-- No entry leads to the archive, and a file that entries lead to held what the last of them holds. -/
structure Undisturbed (downloads : Path) (name : String) (old : Files)
    (entries : List Extraction) : Prop where
  archive : ∀ entry ∈ placed downloads name entries, entry.1 ≠ name
  same : ∀ earlier other content later, placed downloads name entries = earlier ++
    (other, content) :: later →
    (∀ entry ∈ later, entry.1 ≠ other) → old.lookup other = some content

/-- The whole file goes in one request, under a name that needs no encoding and that nothing has
at `NioTransfer`, over no longer file at the dashboard, where a received archive has no entry
that changes a file of the directory. -/
structure Upload.Interchangeable (unpacked : UploadRequest → Bytes → List Extraction)
    (downloads : Path) (displayName : String) (file : Bytes) (before : Directories)
    (upload : Upload) : Prop where
  oneRequest : upload.OneRequest file
  unreserved : ∀ byte ∈ utf8 displayName, isUnreserved byte = true
  absent : before.nio.contains displayName = false
  fits : upload = .single → ((before.dashboard.files.lookup displayName).getD []).length ≤ file.length
  extracts : isZip displayName = true → ∀ request ∈ upload.requests displayName file,
    Undisturbed downloads displayName before.dashboard.files (unpacked request file)

variable {file old : Bytes} {displayName name : String} {upload : Upload} {request : UploadRequest}
variable {numStreams : Nat}

theorem Tiled.inside (tiled : Tiled size start ranges) :
    ∀ range ∈ ranges, start ≤ range.1 ∧ 0 < range.2 ∧ range.1 + range.2 ≤ size := by
  induction tiled with
  | done => exact fun _ member => by cases member
  | @next length start _ nonempty rest ih =>
    have within : start + length ≤ size := by
      cases rest with
      | done => exact Nat.le_refl _
      | next =>
        have first := ih _ List.mem_cons_self
        omega
    intro range member
    rcases List.mem_cons.mp member with rfl | later
    · exact ⟨Nat.le_refl _, nonempty, within⟩
    · have bounds := ih range later
      omega

theorem Tiled.several (tiled : Tiled size start ranges)
    (two : 2 ≤ ranges.length) :
    (∀ range ∈ ranges, range.2 < size - start) ∧ ∃ range ∈ ranges, start < range.1 := by
  cases tiled with
  | done => cases two
  | @next _ _ ranges _ rest =>
    obtain ⟨next, _, rfl⟩ := List.exists_cons_of_ne_nil (l := ranges) (by rintro rfl; simp at two)
    have following := rest.inside next List.mem_cons_self
    refine ⟨?_, next, List.mem_cons_of_mem _ List.mem_cons_self, by omega⟩
    intro range member
    rcases List.mem_cons.mp member with rfl | among
    · simp only
      omega
    · have bounds := rest.inside range among
      omega

theorem uploadParallel_start
    (few : parallelStreams numStreams = 1 ∨ file.length < parallelStreams numStreams)
    (member : request ∈ uploadParallel displayName file numStreams) : request.start = 0 := by
  obtain ⟨index, within, part⟩ := List.mem_filterMap.mp member
  have before := List.mem_range.mp within
  rw [parallelPart_eq before] at part
  split at part
  · cases part
  · cases part
    show boundary file (parallelStreams numStreams) index = 0
    rw [boundary, if_neg (by omega)]
    rcases few with _ | short
    · rw [show index = 0 by omega, Nat.zero_mul]
    · rw [Nat.div_eq_of_lt short, Nat.mul_zero]

theorem uploadParallel_first (two : 2 ≤ parallelStreams numStreams)
    (enough : parallelStreams numStreams ≤ file.length) :
    ∃ request ∈ uploadParallel displayName file numStreams,
      request.content.length < file.length := by
  have each : 0 < file.length / parallelStreams numStreams := Nat.div_pos enough (by omega)
  have less : file.length / parallelStreams numStreams < file.length :=
    Nat.div_lt_self (by omega) (by omega)
  have zero : boundary file (parallelStreams numStreams) 0 = 0 := by
    rw [boundary, if_neg (by omega), Nat.zero_mul]
  have one : boundary file (parallelStreams numStreams) (0 + 1) =
      file.length / parallelStreams numStreams := by
    rw [boundary, if_neg (by omega), Nat.zero_add, Nat.one_mul]
  have part := @parallelPart_eq file displayName (parallelStreams numStreams) 0 (by omega)
  rw [zero, one, if_neg (by omega)] at part
  refine ⟨_, List.mem_filterMap.mpr ⟨0, List.mem_range.mpr (by omega), part⟩, ?_⟩
  simp only [List.length_take, List.length_drop]
  omega

/-- One stream or fewer bytes than streams means one request, and more means several. -/
theorem oneRequest_iff (upload : Upload) :
    (upload.requests displayName file).length = 1 ↔ upload.OneRequest file := by
  cases upload with
  | single => simp [Upload.requests, uploadSingleFile, Upload.OneRequest]
  | parallel numStreams =>
    have tiled := uploadParallel_tiled displayName file numStreams
    simp only [Upload.requests, Upload.OneRequest]
    constructor
    · intro single
      have nonempty : file ≠ [] := by
        rintro rfl
        rw [uploadParallel_empty] at single
        cases single
      refine ⟨nonempty, ?_⟩
      by_contra many
      have positive := parallelStreams_pos numStreams
      obtain ⟨request, member, _⟩ := @uploadParallel_first file displayName numStreams
        (by omega) (by omega)
      obtain ⟨only, alone⟩ := List.length_eq_one_iff.mp single
      rw [alone] at member tiled
      obtain rfl := List.mem_singleton.mp member
      obtain ⟨range, among, lower, upper⟩ := tiled.covers (Nat.zero_le (file.length - 1)) (by omega)
      obtain rfl := List.mem_singleton.mp among
      have first := tiled.first (by omega)
      obtain ⟨_, head⟩ := first
      have start := congrArg Prod.fst (List.mem_singleton.mp head)
      simp only [UploadRequest.range] at start lower upper
      omega
    · rintro ⟨nonempty, few⟩
      have positive := List.length_pos_iff.mpr nonempty
      by_contra other
      rcases Nat.lt_or_gt_of_ne other with _ | _
      · have empty : uploadParallel displayName file numStreams = [] :=
          List.length_eq_zero_iff.mp (by omega)
        rw [empty] at tiled
        obtain ⟨_, _⟩ := tiled.first (by omega)
        contradiction
      · obtain ⟨_, member, after⟩ := (tiled.several (by rw [List.length_map]; omega)).2
        obtain ⟨_, among, rfl⟩ := List.mem_map.mp member
        have start := uploadParallel_start few among
        simp only [UploadRequest.range] at after
        omega

theorem overwritten_single : overwritten old
    { filename := name, offset := none, totalSize := none, content := file } = file ++
      old.drop file.length := by
  simp [overwritten, UploadRequest.start, writeAt, setLen]

theorem whole_request (one : upload.OneRequest file) :
    ∃ request, upload.requests displayName file = [request] ∧
    request.filename = urlencode displayName ∧ request.content = file ∧
    ∀ old, overwritten old request = upload.leaves file old := by
  cases upload with
  | single => exact ⟨_, rfl, rfl, rfl, fun old => overwritten_single⟩
  | parallel numStreams =>
    obtain ⟨request, alone⟩ := List.length_eq_one_iff.mp ((@oneRequest_iff file displayName _).mpr one)
    have member : request ∈ uploadParallel displayName file numStreams := by
      show request ∈ Upload.requests displayName file (.parallel numStreams)
      rw [alone]
      exact List.mem_singleton_self _
    have carries := uploadParallel_carries member
    have start := uploadParallel_start one.2 member
    have length : request.content.length = file.length := by
      have tiled : Tiled file.length 0
          ((Upload.requests displayName file (.parallel numStreams)).map _) :=
        uploadParallel_tiled displayName file numStreams
      have positive := List.length_pos_iff.mpr one.1
      have within := carries.within
      rw [alone] at tiled
      obtain ⟨_, among, lower, upper⟩ := tiled.covers (Nat.zero_le (file.length - 1)) (by omega)
      obtain rfl := List.mem_singleton.mp among
      simp only [UploadRequest.range] at lower upper
      omega
    have content : request.content = file := by
      have carried := carries.content
      rwa [start, length, List.drop_zero, List.take_length] at carried
    refine ⟨request, alone, uploadParallel_filename member, content, fun old => ?_⟩
    have cut : (setLen file.length old).drop file.length = [] := by
      rw [List.drop_eq_nil_iff, length_setLen]
    have front : setLen 0 (setLen file.length old) = [] := List.eq_nil_of_length_eq_zero length_setLen
    simp only [overwritten, start, carries.total, content, Upload.leaves]
    rw [writeAt, front, Nat.zero_add, cut, List.nil_append, List.append_nil]

variable {unpacked : UploadRequest → Bytes → List Extraction} {downloads : Path}
  {folder after : Folder}
variable {files : Files} {saved : String} {names : List String} {entries : List Extraction}

theorem put_cases (put : folder.put name content = some after) :
    after = { folder with files := folder.files.insert name content } := by
  unfold Folder.put at put
  split at put
  · cases put
  · exact (Option.some.inj put).symm

theorem extractEntries_placed (apart : ∀ entry ∈ placed downloads name entries, entry.1 ≠ name)
    (files : Files) :
    extractEntries downloads name files entries =
      (placed downloads name entries).foldl
      (fun files entry => files.insert entry.1 entry.2) files := by
  induction entries generalizing files with
  | nil => rfl
  | cons entry _ ih =>
    simp only [extractEntries, extractEntry, placed] at apart ⊢
    by_cases made : entry.made = true
    · simp only [made, Bool.not_true, Bool.false_eq_true, if_false] at apart ⊢
      cases leads : entry.target downloads name with
      | none =>
        rw [leads] at apart
        by_cases further : (isDirEntry entry.name || entry.intact) = true
        · simp only [further, if_true] at apart ⊢
          exact ih apart files
        · simp only [further, Bool.false_eq_true, if_false]
          rfl
      | some target =>
        rw [leads] at apart
        have other : target ≠ name := apart (target, entry.content) List.mem_cons_self
        by_cases intact : entry.intact = true
        · simp only [intact, other, if_true, if_false, List.mem_cons, List.foldl_cons] at apart ⊢
          exact ih (fun later member => apart later (.inr member)) _
        · simp only [intact, other, Bool.false_eq_true, if_false, List.foldl_cons, List.foldl_nil]
    · simp only [made, Bool.not_false, if_true, List.foldl_nil]

/-- An archive that an entry leads to is left empty. -/
theorem extractEntries_emptied
    (overwritten : ∃ entry ∈ placed downloads name entries, entry.1 = name) (files : Files) :
    (extractEntries downloads name files entries).lookup name = some [] := by
  induction entries generalizing files with
  | nil =>
    obtain ⟨entry, member, _⟩ := overwritten
    cases member
  | cons entry _ ih =>
    simp only [extractEntries, extractEntry, placed] at overwritten ⊢
    by_cases made : entry.made = true
    · simp only [made, Bool.not_true, Bool.false_eq_true, if_false] at overwritten ⊢
      cases leads : entry.target downloads name with
      | none =>
        rw [leads] at overwritten
        by_cases further : (isDirEntry entry.name || entry.intact) = true
        · simp only [further, if_true] at overwritten ⊢
          exact ih overwritten files
        · simp [further] at overwritten
      | some target =>
        rw [leads] at overwritten
        by_cases same : target = name
        · simp only [same, if_true, AList.lookup_insert]
        · obtain ⟨later, member, here⟩ := overwritten
          simp only [same, if_false]
          rcases List.mem_cons.mp member with rfl | among
          · exact absurd here same
          · by_cases intact : entry.intact = true
            · simp only [intact, if_true] at among ⊢
              exact ih ⟨later, among, here⟩ _
            · simp [intact] at among
    · simp [made] at overwritten

theorem lookup_foldl_insert (written : List (String × Bytes)) (files : Files) (other : String) :
    (written.foldl (fun files entry => files.insert entry.1 entry.2) files).lookup other =
      written.foldl (fun held entry => if entry.1 = other then some entry.2 else held)
        (files.lookup other) := by
  induction written generalizing files with
  | nil => rfl
  | cons entry _ ih =>
    rw [List.foldl_cons, List.foldl_cons, ih]
    by_cases same : entry.1 = other
    · rw [if_pos same, ← same, AList.lookup_insert]
    · rw [if_neg same, AList.lookup_insert_ne (Ne.symm same)]

/-- The last write of a file decides what it holds. -/
theorem held_iff (written : List (String × Bytes)) (held : Option Bytes) (other : String) :
    written.foldl (fun held entry => if entry.1 = other then some entry.2 else held) held = held ↔
      ∀ earlier content later, written = earlier ++ (other, content) :: later →
        (∀ entry ∈ later, entry.1 ≠ other) → held = some content := by
  induction written using List.reverseRecOn with
  | nil => simp
  | append_singleton front last ih =>
    have ends {earlier : List (String × Bytes)} {content : Bytes} {before : List (String × Bytes)}
      {final : String × Bytes}
        (split : front ++ [last] = earlier ++ (other, content) :: before.concat final) :
        front = earlier ++ (other, content) :: before ∧ last = final := by
      rw [List.concat_eq_append, ← List.cons_append, ← List.append_assoc] at split
      obtain ⟨shorter, here⟩ := List.append_inj' split rfl
      exact ⟨shorter, List.singleton_inj.mp here⟩
    rw [List.foldl_append, List.foldl_cons, List.foldl_nil]
    by_cases same : last.1 = other
    · rw [if_pos same]
      constructor
      · intro kept earlier content later split none
        rcases List.eq_nil_or_concat later with rfl | ⟨before, final, rfl⟩
        · obtain ⟨_, here⟩ := List.append_inj' split rfl
          cases here
          exact kept.symm
        · obtain ⟨_, rfl⟩ := ends split
          exact absurd same (none last (by simp))
      · intro every
        exact (every front last.2 [] (by rw [← same]) (by simp)).symm
    · rw [if_neg same, ih]
      constructor
      · intro every earlier content later split none
        rcases List.eq_nil_or_concat later with rfl | ⟨before, final, rfl⟩
        · obtain ⟨_, here⟩ := List.append_inj' split rfl
          cases here
          exact absurd rfl same
        · exact every earlier content before (ends split).1 fun entry member =>
            none entry (by simp [member])
      · intro every earlier content later split none
        refine every earlier content (later ++ [last]) (by rw [split]; simp) fun entry member => ?_
        rcases List.mem_append.mp member with among | final
        · exact none entry among
        · rw [List.mem_singleton.mp final]
          exact same

/-- After the extraction a file that is not empty and the other files are as they were exactly
when no entry disturbs them. -/
theorem extracted_iff (nonempty : file ≠ []) :
    ((extractEntries downloads name (before.insert name file) entries).lookup name = some file ∧
      ∀ other, other ≠ name →
        (extractEntries downloads name (before.insert name file) entries).lookup other =
        before.lookup other) ↔
      Undisturbed downloads name before entries := by
  constructor
  · intro ⟨stored, others⟩
    have apart : ∀ entry ∈ placed downloads name entries, entry.1 ≠ name := by
      intro entry member same
      rw [extractEntries_emptied ⟨entry, member, same⟩] at stored
      exact nonempty (Option.some.inj stored).symm
    refine ⟨apart, ?_⟩
    intro earlier other content later split none
    have different : other ≠ name := apart (other, content) (by simp [split])
    have kept := others other different
    rw [extractEntries_placed apart, lookup_foldl_insert, AList.lookup_insert_ne different] at kept
    exact (held_iff _ _ other).mp kept earlier content later split none
  · intro undisturbed
    rw [extractEntries_placed undisturbed.archive]
    constructor
    · rw [lookup_foldl_insert, AList.lookup_insert]
      refine (held_iff _ _ name).mpr ?_
      intro earlier content later split _
      exact absurd rfl (undisturbed.archive (name, content) (by simp [split]))
    · intro other different
      rw [lookup_foldl_insert, AList.lookup_insert_ne different]
      refine (held_iff _ _ other).mpr ?_
      intro earlier content later split none
      exact undisturbed.same earlier other content later split none

theorem dashboardReceive_cases
    (received : dashboardReceive unpacked downloads folder request = some (after, saved)) :
    isFileName request.filename = true ∧ request.content ≠ [] ∧ saved = request.filename ∧
      after.files =
        if isZip request.filename then unzipTo (unpacked request) downloads request.filename
          (folder.files.insert request.filename
            (overwritten ((folder.files.lookup request.filename).getD []) request))
        else folder.files.insert request.filename
          (overwritten ((folder.files.lookup request.filename).getD []) request) := by
  simp only [dashboardReceive] at received
  split at received
  · cases received
  · rename_i accepted
    simp only [Bool.or_eq_true, Bool.not_eq_true', not_or, Bool.not_eq_false] at accepted
    obtain ⟨_, put, same⟩ := Option.map_eq_some_iff.mp received
    refine ⟨accepted.2, fun empty => accepted.1 (by rw [empty]; rfl), ?_⟩
    rw [put_cases put] at same
    split at same
    · rename_i archive
      cases same
      exact ⟨rfl, by rw [if_pos archive]⟩
    · rename_i ordinary
      cases same
      exact ⟨rfl, by rw [if_neg ordinary]⟩

theorem androidReceive_cases (received : androidReceive folder request = some (after, saved)) :
    saved = androidName request.filename ∧
      after.files = folder.files.insert (androidName request.filename) request.content := by
  simp only [androidReceive] at received
  split at received
  · obtain ⟨_, put, same⟩ := Option.map_eq_some_iff.mp received
    cases same
    rw [put_cases put]
    exact ⟨rfl, rfl⟩
  · cases received

theorem nioReceive_cases (received : nioReceive folder request = some (after, saved)) :
    ∃ base, nioName request.filename = some base ∧ resolveOutputFile folder base = some saved ∧
      after.files = folder.files.insert saved request.content := by
  obtain ⟨base, decoded, rest⟩ := Option.bind_eq_some_iff.mp received
  obtain ⟨_, resolved, created⟩ := Option.bind_eq_some_iff.mp rest
  split at created
  · obtain ⟨_, put, same⟩ := Option.map_eq_some_iff.mp created
    cases same
    rw [put_cases put]
    exact ⟨base, decoded, resolved, rfl⟩
  · cases created

theorem receiveAll_cons
    (first : receive folder request = some (after, saved)) :
    receiveAll receive folder (request :: requests) =
      (receiveAll receive after requests).map fun (last, names) => (last, saved :: names) := by
  rw [receiveAll, first, Option.bind_some]

theorem receiveAll_single
    (received : receiveAll receive folder [request] = some (after, names)) :
    ∃ saved, receive folder request = some (after, saved) ∧ names = [saved] := by
  obtain ⟨⟨_, saved⟩, first, rest⟩ := Option.bind_eq_some_iff.mp received
  obtain ⟨⟨_, _⟩, none, same⟩ := Option.map_eq_some_iff.mp rest
  cases none
  cases same
  exact ⟨saved, first, rfl⟩

theorem androidReceive_last
    (received : receiveAll androidReceive folder (front ++ [request]) = some (after, names)) :
    androidName request.filename ∈ names ∧
      after.files.lookup (androidName request.filename) = some request.content := by
  induction front generalizing folder names with
  | nil =>
    obtain ⟨saved, last, rfl⟩ := receiveAll_single received
    obtain ⟨rfl, written⟩ := androidReceive_cases last
    rw [written]
    exact ⟨List.mem_singleton_self _, AList.lookup_insert _⟩
  | cons _ _ ih =>
    obtain ⟨⟨_, _⟩, _, rest⟩ := Option.bind_eq_some_iff.mp received
    obtain ⟨⟨_, _⟩, all, same⟩ := Option.map_eq_some_iff.mp rest
    cases same
    obtain ⟨named, stored⟩ := ih all
    exact ⟨List.mem_cons_of_mem _ named, stored⟩

theorem storedAs_insert : StoredAs file files (files.insert name file) [name] name where
  answered := by simp
  named saved member := List.mem_singleton.mp member
  stored := AList.lookup_insert _
  others other different := AList.lookup_insert_ne different

variable {order : List UploadRequest} {before later : Directories}
  {dashboard android nio : List String}

/-- Whatever the order, storing the source in the end takes one request. -/
theorem oneRequest_of_stored (emitted : order.Perm (upload.requests displayName file))
    (received : receiveAll androidReceive folder order = some (after, names))
    (stored : StoredAs file folder.files after.files names name) : upload.OneRequest file := by
  have some : order ≠ [] := by
    rintro rfl
    cases received
    exact stored.answered rfl
  obtain ⟨_, last, rfl⟩ := List.eq_nil_or_concat order |>.resolve_left some
  rw [List.concat_eq_append] at received emitted
  obtain ⟨named, kept⟩ := androidReceive_last received
  rw [stored.named _ named, stored.stored] at kept
  have whole : file = last.content := Option.some.inj kept
  have member : last ∈ upload.requests displayName file := emitted.mem_iff.mp (by simp)
  cases upload with
  | single => trivial
  | parallel numStreams =>
    refine (@oneRequest_iff file displayName _).mp ?_
    by_contra other
    have tiled := uploadParallel_tiled displayName file numStreams
    have many : 2 ≤ ((uploadParallel displayName file numStreams).map UploadRequest.range).length := by
      rw [List.length_map]
      have positive := List.length_pos_of_mem member
      simp only [Upload.requests] at other positive
      omega
    have shorter := (tiled.several many).1 last.range (List.mem_map_of_mem member)
    simp only [UploadRequest.range, ← whole] at shorter
    omega

theorem request_of_oneRequest (emitted : order.Perm (upload.requests displayName file))
    (one : upload.OneRequest file) :
    ∃ request, order = [request] ∧ request.filename = urlencode displayName ∧
      request.content = file ∧
      ∀ old, overwritten old request = upload.leaves file old := by
  obtain ⟨request, alone, facts⟩ := @whole_request file displayName upload one
  rw [alone, List.perm_singleton] at emitted
  exact ⟨request, emitted, facts⟩

section Received

variable (emitted : order.Perm (upload.requests displayName file))
  (toDashboard : receiveAll (dashboardReceive unpacked downloads) before.dashboard order =
    some (later.dashboard, dashboard))
  (toAndroid : receiveAll androidReceive before.android order = some (later.android, android))
  (toNio : receiveAll nioReceive before.nio order = some (later.nio, nio))
include emitted toDashboard toAndroid toNio

theorem interchangeable_of_endAlike
    (alike : EndAlike file before later dashboard android nio) :
    upload.Interchangeable unpacked downloads displayName file before := by
  obtain ⟨_, atDashboard, atAndroid, atNio⟩ := alike
  have one := oneRequest_of_stored emitted toAndroid atAndroid
  obtain ⟨request, rfl, encoded, content, leaves⟩ := request_of_oneRequest emitted one
  obtain ⟨_, received, rfl⟩ := receiveAll_single toDashboard
  obtain ⟨_, resolvedAll, rfl⟩ := receiveAll_single toNio
  obtain ⟨valid, something, rfl, written⟩ := dashboardReceive_cases received
  obtain ⟨_, decoded, resolved, -⟩ := nioReceive_cases resolvedAll
  obtain rfl := atDashboard.named _ (List.mem_singleton_self _)
  obtain rfl := atNio.named _ (List.mem_singleton_self _)
  rw [encoded] at valid decoded resolved written
  obtain ⟨plain, absent⟩ := plain_of_resolved valid decoded resolved
  rw [urlencode_plain plain] at encoded written
  rw [leaves] at written
  rw [encoded] at atDashboard
  rw [content] at something
  have only : ∀ other ∈ upload.requests displayName file, other = request := by
    intro other member
    exact List.mem_singleton.mp (emitted.mem_iff.mpr member)
  obtain ⟨-, -, stored, others⟩ := atDashboard
  by_cases archive : isZip displayName = true
  · rw [if_pos archive, unzipTo, AList.lookup_insert, Option.getD_some] at written
    rw [written] at stored others
    set left := upload.leaves file ((before.dashboard.files.lookup displayName).getD []) with leaves
    have apart : ∀ entry ∈ placed downloads displayName (unpacked request left),
        entry.1 ≠ displayName := by
      intro entry member same
      rw [extractEntries_emptied ⟨entry, member, same⟩] at stored
      exact something (Option.some.inj stored).symm
    have whole : left = file := by
      have kept := stored
      rw [extractEntries_placed apart, lookup_foldl_insert, AList.lookup_insert] at kept
      rw [(held_iff _ _ displayName).mpr] at kept
      · exact Option.some.inj kept
      · intro _ content _ split _
        exact absurd rfl (apart (displayName, content) (by simp [split]))
    rw [whole] at stored others leaves
    refine ⟨one, forall_isPlain_iff.mpr plain, absent, ?_, ?_⟩
    · rintro rfl
      have tail := List.append_cancel_left (leaves.symm.trans (List.append_nil file).symm)
      exact List.drop_eq_nil_iff.mp tail
    · intro _ other member
      rw [only other member]
      exact (extracted_iff something).mp ⟨stored, others⟩
  · rw [if_neg archive] at written
    refine ⟨one, forall_isPlain_iff.mpr plain, absent, ?_, fun zip => absurd zip archive⟩
    rintro rfl
    rw [written, AList.lookup_insert] at stored
    have same := Option.some.inj stored
    have tail := List.append_cancel_left (same.trans (List.append_nil file).symm)
    exact List.drop_eq_nil_iff.mp tail

theorem endAlike_of_interchangeable
    (interchangeable : upload.Interchangeable unpacked downloads displayName file before) :
    EndAlike file before later dashboard android nio := by
  obtain ⟨request, rfl, encoded, content, leaves⟩ := request_of_oneRequest emitted
    interchangeable.oneRequest
  have plain := forall_isPlain_iff.mp interchangeable.unreserved
  rw [urlencode_plain plain] at encoded
  obtain ⟨_, received, rfl⟩ := receiveAll_single toDashboard
  obtain ⟨_, created, rfl⟩ := receiveAll_single toAndroid
  obtain ⟨third, resolvedAll, rfl⟩ := receiveAll_single toNio
  obtain ⟨valid, something, rfl, written⟩ := dashboardReceive_cases received
  obtain ⟨rfl, anew⟩ := androidReceive_cases created
  obtain ⟨base, decoded, resolved, created⟩ := nioReceive_cases resolvedAll
  rw [encoded] at valid written anew decoded ⊢
  rw [leaves] at written
  rw [content] at anew created something
  have same : base = displayName := by
    have read := @nioName_of_isFileName displayName (by rw [urlencode_plain plain]; exact valid)
    rw [urlencode_plain plain, decoded, map_flattenChar_plain plain, String.ofList_toList] at read
    exact Option.some.inj read
  subst same
  have fresh : third = base := by
    rw [resolveOutputFile, interchangeable.absent] at resolved
    exact (Option.some.inj resolved).symm
  subst fresh
  rw [androidName_plain plain] at anew ⊢
  refine ⟨third, ?_, by rw [anew]; exact storedAs_insert, by rw [created]; exact storedAs_insert⟩
  have whole : upload.leaves file ((before.dashboard.files.lookup third).getD []) = file := by
    cases upload with
    | single =>
      have short := interchangeable.fits rfl
      rw [Upload.leaves, List.drop_eq_nil_iff.mpr short, List.append_nil]
    | parallel => rfl
  rw [whole] at written
  by_cases archive : isZip third = true
  · rw [if_pos archive, unzipTo, AList.lookup_insert, Option.getD_some] at written
    have undisturbed := interchangeable.extracts archive request
      (emitted.mem_iff.mp (List.mem_singleton_self _))
    obtain ⟨stored, others⟩ := (extracted_iff something).mpr undisturbed
    exact ⟨by simp, fun saved member => List.mem_singleton.mp member, by rw [written]; exact stored,
      by rw [written]; exact others⟩
  · rw [if_neg archive] at written
    rw [written]
    exact storedAs_insert

end Received

/-- Where all requests succeed, the receivers end alike exactly on one plain, fresh, whole request. -/
theorem interchangeable_iff (emitted : order.Perm (upload.requests displayName file))
    (toDashboard : receiveAll (dashboardReceive unpacked downloads) before.dashboard order =
      some (later.dashboard, dashboard))
    (toAndroid : receiveAll androidReceive before.android order = some (later.android, android))
    (toNio : receiveAll nioReceive before.nio order = some (later.nio, nio)) :
    EndAlike file before later dashboard android nio ↔
      upload.Interchangeable unpacked downloads displayName file before :=
  ⟨interchangeable_of_endAlike emitted toDashboard toAndroid toNio,
    endAlike_of_interchangeable emitted toDashboard toAndroid toNio⟩

def Folder.empty : Folder := { files := ∅, subdirectories := [] }

def pdos : Path := ["Downloads", "PDOS"]

theorem plain_of_ascii (ascii : displayName.toList.all
      (fun c => c.toNat < 128 && isUnreserved (UInt8.ofNat c.toNat)) = true) :
    ∀ c ∈ displayName.toList, isPlain c := by
  intro c member
  have facts := List.all_eq_true.mp ascii c member
  rw [Bool.and_eq_true, decide_eq_true_iff] at facts
  exact (isPlain_ascii facts.1).mpr facts.2

section PlainNames

variable (plain : ∀ c ∈ displayName.toList, isPlain c) (valid : isFileName displayName = true)
include plain valid

theorem androidReceive_plain (filename : request.filename = displayName) :
    androidReceive folder request =
      (folder.put displayName request.content).map fun written => (written, displayName) := by
  simp only [androidReceive, filename, androidName_plain plain, valid, if_true]

theorem nioReceive_plain (filename : request.filename = displayName) {chosen : String}
    (resolved : resolveOutputFile folder displayName = some chosen)
    (free : isFileName chosen = true) :
    nioReceive folder request = (folder.put chosen request.content).map fun written =>
      (written, chosen) := by
  have decoded := @nioName_of_isFileName displayName (by rw [urlencode_plain plain]; exact valid)
  rw [urlencode_plain plain, map_flattenChar_plain plain, String.ofList_toList] at decoded
  simp only [nioReceive, filename, decoded, Option.bind_some, resolved, valid, free,
    Bool.and_self, if_true]

end PlainNames

theorem plain_zip : ∀ c ∈ "a.zip".toList, isPlain c := plain_of_ascii (by decide)

theorem plain_name : ∀ c ∈ "a.bin".toList, isPlain c := plain_of_ascii (by decide)

/-- An archive of a file in a directory, of one beside the archive, and of a directory that
cannot be made. -/
def threeEntries : List Extraction :=
  [{ name := "sub/x.txt", made := true, content := [7], intact := true },
    { name := "../b.txt", made := true, content := [5], intact := true },
    { name := "c/", made := false, content := [], intact := true }]

/-- The dashboard has the file beside the archive and a shorter archive, the agent a longer one,
and `NioTransfer` the stem's directory. -/
def earlier : Directories :=
  { dashboard := { files := ((∅ : Files).insert "b.txt" [5]).insert "a.zip" [9], subdirectories := [] }
    android := { files := (∅ : Files).insert "a.zip" [4, 4, 4, 4], subdirectories := [] }
    nio := { files := ∅, subdirectories := ["a"] } }

def Folder.withZip (folder : Folder) : Folder :=
  { folder with files := folder.files.insert "a.zip" [1, 2, 3] }

def received : Directories :=
  { dashboard :=
      { earlier.dashboard.withZip with files := earlier.dashboard.withZip.files.insert "b.txt" [5] }
    android := earlier.android.withZip
    nio := earlier.nio.withZip }

/-- An archive of three bytes goes in one request and ends alike. -/
theorem interchangeable_archive :
    EndAlike [1, 2, 3] earlier received ["a.zip"] ["a.zip"] ["a.zip"] := by
  have encoded : urlencode "a.zip" = "a.zip" := urlencode_plain plain_zip
  have valid : isFileName "a.zip" = true := by decide
  have toAndroid : receiveAll androidReceive earlier.android (uploadSingleFile "a.zip" [1, 2, 3]) =
      some (received.android, ["a.zip"]) := by
    rw [uploadSingleFile, receiveAll_cons (androidReceive_plain plain_zip valid encoded)]
    rfl
  have toNio : receiveAll nioReceive earlier.nio (uploadSingleFile "a.zip" [1, 2, 3]) =
      some (received.nio, ["a.zip"]) := by
    rw [uploadSingleFile, receiveAll_cons (nioReceive_plain plain_zip valid encoded rfl valid)]
    rfl
  have toDashboard : receiveAll (dashboardReceive (fun _ _ => threeEntries) pdos) earlier.dashboard
      (uploadSingleFile "a.zip" [1, 2, 3]) = some (received.dashboard, ["a.zip"]) := by
    rfl
  have leads : placed pdos "a.zip" threeEntries = [("b.txt", [5])] := by decide
  have undisturbed : Undisturbed pdos "a.zip" earlier.dashboard.files threeEntries := by
    refine ⟨by rw [leads]; decide, ?_⟩
    intro before _ _ _ split _
    rw [leads] at split
    cases before with
    | nil =>
      cases split
      rfl
    | cons => simp at split
  refine (@interchangeable_iff [1, 2, 3] "a.zip" .single (fun _ _ => threeEntries) pdos
    _ earlier received _ _ _
      (List.Perm.refl _) toDashboard toAndroid toNio).mpr ?_
  exact {
    oneRequest := trivial
    unreserved := forall_isPlain_iff.mpr plain_zip
    absent := rfl
    fits := fun _ => by decide
    extracts := fun _ _ _ => undisturbed }

/-- Two streams of one byte each: the Android agent keeps only the second byte. -/
theorem parts_lost : ∃ (later : Directories) (dashboard android nio : List String),
    receiveAll (dashboardReceive (fun _ _ => []) pdos) .empty (uploadParallel "a.bin" [1, 2] 2) =
      some (later.dashboard, dashboard) ∧
    receiveAll androidReceive .empty (uploadParallel "a.bin" [1, 2] 2) =
    some (later.android, android) ∧
    receiveAll nioReceive .empty (uploadParallel "a.bin" [1, 2] 2) = some (later.nio, nio) ∧
    ¬ EndAlike [1, 2] { dashboard := .empty, android := .empty, nio := .empty } later dashboard
    android nio := by
  have parts : uploadParallel "a.bin" [1, 2] 2 =
      [{ filename := "a.bin", offset := some 0, totalSize := some 2, content := [1] },
        { filename := "a.bin", offset := some 1, totalSize := some 2, content := [2] }] := by decide
  have valid : isFileName "a.bin" = true := by decide
  have toAndroid : receiveAll androidReceive .empty (uploadParallel "a.bin" [1, 2] 2) =
      some ({ files := (∅ : Files).insert "a.bin" [2], subdirectories := [] }, ["a.bin", "a.bin"]) := by
    rw [parts, receiveAll_cons (androidReceive_plain plain_name valid rfl),
      receiveAll_cons (androidReceive_plain plain_name valid rfl)]
    rfl
  have toNio : receiveAll nioReceive .empty (uploadParallel "a.bin" [1, 2] 2) =
      some ({ files := ((∅ : Files).insert "a.bin" [1]).insert "a_1.bin" [2], subdirectories := [] },
        ["a.bin", "a_1.bin"]) := by
    rw [parts, receiveAll_cons (nioReceive_plain plain_name valid rfl rfl valid),
      receiveAll_cons (@nioReceive_plain _ _ _ plain_name valid rfl "a_1.bin" rfl (by decide))]
    rfl
  refine ⟨
    { dashboard := { files := (∅ : Files).insert "a.bin" [1, 2], subdirectories := [] }
      android := _, nio := _ },
    ["a.bin", "a.bin"], _, _, by rw [parts]; rfl, toAndroid, toNio, ?_⟩
  rintro ⟨_, -, atAndroid, -⟩
  obtain rfl := atAndroid.named "a.bin" List.mem_cons_self
  exact absurd atAndroid.stored (by decide)

end DistributedOs.Http
