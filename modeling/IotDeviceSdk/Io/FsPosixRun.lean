import IotDeviceSdk.Io.FsPosix

/-!
# Runs of the file system on POSIX

The elements of the list and their buffers are blocks that are allocated, each for itself, and the
descriptors are those that `open` has returned. From that follows what each function does to the list.

`calls_sound_iff` is the result: the calls of a run are as claimed exactly when they meet the condition.
-/

namespace IotDeviceSdk.FsPosix

open Datastructures Infra

/-! ## The invariant -/

/-- The blocks of the elements. -/
def owned (files : List Container) : List Ptr := files.flatMap Container.blocks

/-- **The invariant.** -/
structure Valid (s : State) : Prop where
  owned : ∃ rest, s.heap.blocks.Perm (owned s.files ++ rest)
  distinct : s.heap.Distinct
  fd : ∀ x ∈ s.files, 0 ≤ x.posixFd ∧ toInt x.posixFd = x.posixFd

variable {c : SizeT} {s s' : State} {x : Container} {before behind : List Container} {handle : Int}
  {answer : Answer} {heap : Heap} {block : MemoryBuffer}

theorem owned_perm (before behind : List Container) (x : Container) :
    (owned (before ++ x :: behind)).Perm (x.blocks ++ owned (before ++ behind)) := by
  simp only [owned, List.flatMap_append, List.flatMap_cons]
  exact List.perm_append_comm_assoc _ _ _

/-- An element of the list and the other blocks. -/
theorem Valid.split (hs : Valid s) (hfiles : s.files = before ++ x :: behind) :
    ∃ rest, s.heap.blocks.Perm (x.blocks ++ (FsPosix.owned (before ++ behind) ++ rest)) := by
  obtain ⟨rest, hrest⟩ := hs.owned
  refine ⟨rest, hrest.trans ?_⟩
  rw [hfiles, ← List.append_assoc]
  exact (owned_perm before behind x).append_right rest

/-- An element is replaced by one for the same file. -/
theorem Valid.replace (hs : Valid s) (hfiles : s.files = before ++ x :: behind)
    {buffer : Option MemoryBuffer} (hdistinct : heap.Distinct)
    (hperm : ∃ rest, heap.blocks.Perm ({ x with memoryBuffer := buffer : Container }.blocks ++
      (FsPosix.owned (before ++ behind) ++ rest))) :
    Valid ⟨before ++ { x with memoryBuffer := buffer } :: behind, heap⟩ := by
  obtain ⟨rest, hrest⟩ := hperm
  refine ⟨⟨rest, hrest.trans ?_⟩, hdistinct, ?_⟩
  · rw [← List.append_assoc]
    exact (owned_perm before behind _).symm.append_right rest
  · intro y hy
    have hfd : ∀ z ∈ before ++ x :: behind, 0 ≤ z.posixFd ∧ toInt z.posixFd = z.posixFd :=
      hfiles ▸ hs.fd
    rcases List.mem_append.1 hy with hy | hy
    · exact hfd y (List.mem_append_left _ hy)
    · rcases List.mem_cons.1 hy with rfl | hy
      · exact hfd x (by simp)
      · exact hfd y (by simp [hy])

theorem address_mem_blocks (x : Container) : x.address ∈ x.blocks := by simp [Container.blocks]

/-- No other element is at the same address. -/
theorem Valid.address_ne (hs : Valid s) (hfiles : s.files = before ++ x :: behind) :
    ∀ y ∈ before ++ behind, y.address ≠ x.address := by
  obtain ⟨rest, hrest⟩ := hs.split hfiles
  intro y hy hxy
  have hnodup := hrest.nodup_iff.1 hs.distinct.nodup
  have hdisjoint := (List.nodup_append.1 hnodup).2.2
  have hmem : y.address ∈ FsPosix.owned (before ++ behind) :=
    List.mem_flatMap.2 ⟨y, hy, address_mem_blocks y⟩
  exact hdisjoint _ (address_mem_blocks x) _ (List.mem_append_left _ hmem) hxy.symm

theorem setBuffer_eq (hs : Valid s) (hfiles : s.files = before ++ x :: behind)
    (buffer : Option MemoryBuffer) :
    setBuffer s.files x buffer = before ++ { x with memoryBuffer := buffer } :: behind := by
  have hne := hs.address_ne hfiles
  have hsame {ys : List Container} (hys : ∀ y ∈ ys, y ∈ before ++ behind) :
      ys.map (fun y => if y.address = x.address then { y with memoryBuffer := buffer } else y) = ys :=
    (List.map_congr_left fun y hy => if_neg (hne y (hys y hy))).trans (List.map_id ys)
  rw [setBuffer, hfiles, List.map_append, List.map_cons, if_pos rfl,
    hsame fun y hy => List.mem_append_left _ hy, hsame fun y hy => List.mem_append_right _ hy]

theorem eraseP_eq (hs : Valid s) (hfiles : s.files = before ++ x :: behind) :
    (s.files.eraseP fun y => y.address = x.address) = before ++ behind := by
  have hne := hs.address_ne hfiles
  rw [hfiles, List.eraseP_append_right _ (fun y hy => by simpa using hne y (by simp [hy])),
    List.eraseP_cons_of_pos (by simp)]

/-- The buffers are not entries of the list. -/
theorem entries_setBuffer (files : List Container) (x : Container) (buffer : Option MemoryBuffer)
    (heap : Heap) :
    entries ⟨setBuffer files x buffer, heap⟩ = files.map fun x => (x.address, x.posixFd) := by
  unfold entries setBuffer
  rw [List.map_map]
  refine List.map_congr_left fun y _ => ?_
  show (fun x : Container => (x.address, x.posixFd)) (if _ then _ else _) = _
  split <;> rfl

/-! ## The search -/

theorem found_split (h : found s handle = some x) :
    ∃ before behind, s.files = before ++ x :: behind ∧ x.posixFd = toInt handle ∧
      ∀ y ∈ before, y.posixFd ≠ toInt handle := by
  obtain ⟨hx, before, behind, hfiles, hbefore⟩ := List.find?_eq_some_iff_append.1 h
  exact ⟨before, behind, hfiles, by simpa using hx, fun y hy => by simpa using hbefore y hy⟩

theorem findFile_of_found (hs : Valid s) (h : found s handle = some x) :
    findFile s.files (toInt handle) = some (some x) := by
  obtain ⟨before, behind, hfiles, hx, -⟩ := found_split h
  have hpos := (hs.fd x (by simp [hfiles])).1
  rw [findFile, if_neg (by omega)]
  exact congrArg some h

theorem findFile_of_not_found (hsearch : Searchable s handle) (h : found s handle = none) :
    findFile s.files (toInt handle) = some none := by
  have hcond : ¬(s.files ≠ [] ∧ toInt handle < 0) := fun hc => by
    have := hsearch hc.1
    omega
  rw [findFile, if_neg hcond]
  exact congrArg some h

theorem findFile_of_not_searchable (h : ¬Searchable s handle) :
    findFile s.files (toInt handle) = none := by
  obtain ⟨hne, hneg⟩ := Classical.not_imp.1 h
  exact if_pos ⟨hne, by omega⟩

/-- What is found can be searched for. -/
theorem Valid.searchable (hs : Valid s) (h : found s handle = some x) : Searchable s handle := by
  obtain ⟨before, behind, hfiles, hx, -⟩ := found_split h
  have hpos := (hs.fd x (by simp [hfiles])).1
  intro _
  omega

/-- A handle is in the list if it is the descriptor of the element that is found for it. -/
theorem Valid.listed_iff (hs : Valid s) :
    Listed s handle ↔ ∃ x ∈ found s handle, x.posixFd = handle := by
  constructor
  · rintro ⟨y, hy, rfl⟩
    have hint := (hs.fd y hy).2
    cases hfound : found s y.posixFd with
    | none =>
      have hnone := List.find?_eq_none.1 hfound y hy
      rw [hint] at hnone
      simp at hnone
    | some x =>
      obtain ⟨before, behind, -, hx, -⟩ := found_split hfound
      exact ⟨x, rfl, hx.trans hint⟩
  · rintro ⟨x, hx, hfd⟩
    exact ⟨x, List.mem_of_find?_eq_some hx, hfd⟩

theorem Valid.listed_iff_of_found (hs : Valid s) (h : found s handle = some x) :
    Listed s handle ↔ x.posixFd = handle := by
  rw [hs.listed_iff, h]
  simp

/-- A call without a result is not as claimed. -/
theorem not_sound_of_none {e : Call} (h : call c s e = none) : ¬Sound c s e := by
  rintro ⟨s', answer, hcall, -⟩
  exact absurd (h.symm.trans hcall) (by simp)

/-- Refused parameters. -/
theorem Answered.of_refused {e : Call} (hs : Valid s) (hrefused : e.refused = true)
    (hstate : answer.state = .invalidParameter) : Answered s e s answer where
  refused _ := ⟨hstate, rfl⟩
  unlisted _ _ h := absurd (hrefused.symm.trans h) Bool.noConfusion
  openFails _ := ⟨hstate ▸ BspState.noConfusion, rfl⟩
  ioFails _ _ _ _ := ⟨hstate ▸ BspState.noConfusion, rfl⟩
  closed handle hhandle hclose hlisted := by
    cases e with
    | bspClose resourceHandle close errno =>
      obtain rfl : resourceHandle = handle := Option.some.inj hhandle
      obtain ⟨x, hx, hfd⟩ := hlisted
      have hinvalid : resourceHandle = invalidHandle := by simpa [Call.refused] using hrefused
      have hpos := (hs.fd x hx).1
      rw [hfd, hinvalid] at hpos
      exact absurd hpos (by decide)
    | bspOpen => cases hhandle
    | bspRead => cases hclose
    | bspWrite => cases hclose

/-! ## Opening -/

variable {result seek write close : PosixResult} {errno : Errno} {buffer : Option (Option MemoryBuffer)}
  {size : Bool} {offset : Nat} {data : Option Bytes}

theorem granted_one_of_alloc {m m' : Heap} {p : Ptr} (h : m.alloc = (some p, m')) : m.Granted 1 := by
  rcases m.alloc_cases with ⟨m₁, -, -, hgranted⟩ | ⟨m₁, hnone, -, -⟩
  · exact (hgranted 0).2 fun b hb => by simp at hb
  · rw [hnone] at h
    cases h

theorem not_granted_one_of_alloc {m m' : Heap} (h : m.alloc = (none, m')) : ¬m.Granted 1 := by
  rcases m.alloc_cases with ⟨m₁, hsome, -, -⟩ | ⟨m₁, -, -, hgranted⟩
  · rw [hsome] at h
    cases h
  · exact hgranted 0

/-- A new element. -/
theorem Valid.push (hs : Valid s) {address : Ptr} (halloc : s.heap.alloc = (some address, heap))
    {n : Int} (hpos : 0 ≤ toInt n) : Valid ⟨s.files ++ [⟨address, toInt n, none⟩], heap⟩ := by
  obtain ⟨rest, hrest⟩ := hs.owned
  obtain ⟨hblocks, -, hdistinct⟩ := hs.distinct.alloc halloc
  refine ⟨⟨rest, ?_⟩, hdistinct, fun x hx => ?_⟩
  · have howned : FsPosix.owned (s.files ++ [⟨address, toInt n, none⟩]) =
        FsPosix.owned s.files ++ [address] := by
      simp [FsPosix.owned, Container.blocks]
    show heap.blocks.Perm _
    rw [hblocks, howned, List.append_assoc, List.singleton_append]
    exact (hrest.cons address).trans List.perm_middle.symm
  · rcases List.mem_append.1 hx with hx | hx
    · exact hs.fd x hx
    · obtain rfl := List.mem_singleton.1 hx
      exact ⟨hpos, Int.bmod_bmod⟩

theorem Answered.of_open {resourceName resourceHandleOut : Bool} {openFlags : Nat}
    {result : PosixResult} {errno : Errno}
    (hrefused : (Call.bspOpen resourceName resourceHandleOut openFlags result errno).refused = false)
    (hfails : (Call.bspOpen resourceName resourceHandleOut openFlags result errno).openFails = true →
      answer.state ≠ .ok ∧ s'.files = s.files) :
    Answered s (.bspOpen resourceName resourceHandleOut openFlags result errno) s' answer where
  refused h := absurd (h.symm.trans hrefused) Bool.noConfusion
  unlisted _ h := by cases h
  openFails := hfails
  ioFails _ h := by cases h
  closed _ h := by cases h

/-- A file is opened, or the list stays; without memory for the element there is no result. -/
theorem bspOpen_cases (hs : Valid s) (resourceName resourceHandleOut : Bool) (openFlags : Nat)
    (result : PosixResult) (errno : Errno) :
    (∃ answer, bspOpen s resourceName resourceHandleOut openFlags result errno = some (s, answer) ∧
        answer.state ≠ .ok ∧
        ((Call.bspOpen resourceName resourceHandleOut openFlags result errno).refused = true ∧
            answer.state = .invalidParameter ∨
          (Call.bspOpen resourceName resourceHandleOut openFlags result errno).refused = false ∧
            toInt result.value < 0)) ∨
      (Call.bspOpen resourceName resourceHandleOut openFlags result errno).refused = false ∧
        0 ≤ toInt result.value ∧
        ((bspOpen s resourceName resourceHandleOut openFlags result errno = none ∧ ¬s.heap.Granted 1) ∨
          ∃ s' answer,
            bspOpen s resourceName resourceHandleOut openFlags result errno = some (s', answer) ∧
              Valid s' ∧ s.heap.Granted 1) := by
  unfold bspOpen
  by_cases hnull : ¬resourceName = true ∨ ¬resourceHandleOut = true
  · rw [if_pos hnull]
    refine .inl ⟨_, rfl, BspState.noConfusion, .inl ⟨?_, rfl⟩⟩
    rcases hnull with h | h <;> simp [Call.refused, h]
  rw [if_neg hnull]
  by_cases hflags : openFlags &&& openAppend = openAppend
  · rw [if_pos hflags]
    exact .inl ⟨_, rfl, BspState.noConfusion, .inl ⟨by simp [Call.refused, hflags], rfl⟩⟩
  rw [if_neg hflags]
  have hrefused :
      (Call.bspOpen resourceName resourceHandleOut openFlags result errno).refused = false := by
    simpa [Call.refused, hflags] using hnull
  by_cases hneg : toInt result.value < 0
  · refine .inl ⟨_, if_pos hneg, errno2State_ne_ok errno, .inr ⟨hrefused, hneg⟩⟩
  refine .inr ⟨hrefused, by omega, ?_⟩
  simp only [if_neg hneg]
  cases halloc : s.heap.alloc with
  | mk r heap =>
    cases r with
    | none => exact .inl ⟨rfl, not_granted_one_of_alloc halloc⟩
    | some address =>
      exact .inr ⟨_, _, rfl, hs.push halloc (by omega), granted_one_of_alloc halloc⟩

theorem bspOpen_sound_iff (hs : Valid s) (resourceName resourceHandleOut : Bool) (openFlags : Nat)
    (result : PosixResult) (errno : Errno) :
    Sound c s (.bspOpen resourceName resourceHandleOut openFlags result errno) ↔
      (Call.bspOpen resourceName resourceHandleOut openFlags result errno).refused = true ∨
        (0 ≤ toInt result.value → s.heap.Granted 1) := by
  rcases bspOpen_cases hs resourceName resourceHandleOut openFlags result errno with
    ⟨answer, hcall, hne, ⟨hrefused, hstate⟩ | ⟨hrefused, hneg⟩⟩ |
    ⟨hrefused, hpos, ⟨hcall, hgranted⟩ | ⟨s', answer, hcall, -, hgranted⟩⟩
  · exact iff_of_true ⟨s, answer, hcall, .of_refused hs hrefused hstate⟩ (.inl hrefused)
  · refine iff_of_true ⟨s, answer, hcall, .of_open hrefused fun _ => ⟨hne, rfl⟩⟩ (.inr fun hpos => ?_)
    exact absurd hneg (by omega)
  · refine iff_of_false (not_sound_of_none hcall) ?_
    · rintro (h | h)
      · exact absurd (h.symm.trans hrefused) Bool.noConfusion
      · exact hgranted (h hpos)
  · refine iff_of_true ⟨s', answer, hcall, .of_open hrefused fun h => ?_⟩ (.inr fun _ => hgranted)
    have hfailed : result = .failed := by simpa [Call.openFails] using h
    subst hfailed
    exact absurd hpos (by decide)

/-! ## Reading -/

/-- `lseek` or `read` has not done what it should, as the function sees it. -/
def ReadFails (offset : Nat) (seek : PosixResult) (data : Option Bytes) : Prop :=
  seekFails seek offset = true ∨ toInt (readResult data).value = 0

theorem seekFails_failed (offset : Nat) : seekFails .failed offset = true := by
  have hneg : toInt PosixResult.failed.value < 0 := by decide
  simp [seekFails, hneg]

/-- The buffer is there, or memory for it. -/
theorem withBuffer_cases (hs : Valid s) (hfiles : s.files = before ++ x :: behind) :
    (x.withBuffer s.heap = none ∧ ¬(x.memoryBuffer = none → s.heap.Granted 1)) ∨
      ∃ block heap, x.withBuffer s.heap = some (block, heap) ∧ heap.Distinct ∧
        (x.memoryBuffer = none → s.heap.Granted 1) ∧
        ∃ rest, heap.blocks.Perm
          (block.ptr :: x.address :: (FsPosix.owned (before ++ behind) ++ rest)) := by
  obtain ⟨rest, hrest⟩ := hs.split hfiles
  unfold Container.withBuffer
  cases hbuffer : x.memoryBuffer with
  | some block =>
    have hblocks : x.blocks = [block.ptr, x.address] := by simp [Container.blocks, hbuffer]
    rw [hblocks] at hrest
    exact .inr ⟨block, s.heap, rfl, hs.distinct, (fun h => by cases h), rest, hrest⟩
  | none =>
    have hblocks : x.blocks = [x.address] := by simp [Container.blocks, hbuffer]
    rw [hblocks] at hrest
    cases halloc : s.heap.alloc with
    | mk r heap =>
      cases r with
      | none => exact .inl ⟨rfl, fun h => not_granted_one_of_alloc halloc (h rfl)⟩
      | some ptr =>
        obtain ⟨hheap, -, hdistinct⟩ := hs.distinct.alloc halloc
        refine .inr ⟨_, heap, rfl, hdistinct, fun _ => granted_one_of_alloc halloc, rest, ?_⟩
        rw [hheap]
        exact hrest.cons ptr

/-- **A read of an element** keeps or drops its buffer, and reports success unless it sees a failure. -/
theorem bspRead_cases (hs : Valid s) (hfound : found s handle = some x)
    (hrefused : (Call.bspRead handle offset buffer size seek data errno).refused = false) :
    (bspRead c s handle offset buffer size seek data errno = none ∧
        ¬(x.memoryBuffer = none → s.heap.Granted 1)) ∨
      ∃ block heap answer,
        bspRead c s handle offset buffer size seek data errno =
            some (⟨setBuffer s.files x block, heap⟩, answer) ∧
          Valid ⟨setBuffer s.files x block, heap⟩ ∧ (x.memoryBuffer = none → s.heap.Granted 1) ∧
          (ReadFails offset seek data → answer.state = errno2State errno ∧ block = none) ∧
          (¬ReadFails offset seek data → answer.state = .ok) := by
  have hparams : ¬(buffer ≠ some none ∨ ¬size = true ∨ handle = invalidHandle) := by
    simpa [Call.refused, not_or, and_assoc] using hrefused
  obtain ⟨before, behind, hfiles, -, -⟩ := found_split hfound
  rw [bspRead, if_neg hparams, findFile_of_found hs hfound, Option.bind_some, Option.bind_some]
  rcases withBuffer_cases hs hfiles with
    ⟨hnone, hgranted⟩ | ⟨block, heap, hsome, hdistinct, hgranted, rest, hperm⟩
  · exact .inl ⟨by rw [hnone]; rfl, hgranted⟩
  refine .inr ?_
  rw [hsome, Option.bind_some]
  -- the exit for errors, which releases the buffer
  have herror : ∃ heap' answer, readError s.files x block heap errno =
        some (⟨setBuffer s.files x none, heap'⟩, answer) ∧
      Valid ⟨setBuffer s.files x none, heap'⟩ ∧ answer.state = errno2State errno := by
    obtain ⟨heap', hrelease, hperm', hnext⟩ := Heap.release_perm hperm
    have hfreed : heap.blocks.Perm ([block.ptr] ++ heap'.blocks) :=
      hperm.trans (hperm'.symm.cons block.ptr)
    have hdistinct' : heap'.Distinct := hdistinct.of_perm hfreed hnext
    refine ⟨heap', _, by rw [readError, hrelease]; rfl, ?_, rfl⟩
    rw [setBuffer_eq hs hfiles]
    exact hs.replace hfiles hdistinct' ⟨rest, hperm'⟩
  obtain ⟨heap', answer, hcall, hvalid, hstate⟩ := herror
  by_cases hseek : seekFails seek offset = true
  · refine ⟨none, heap', answer, ?_, hvalid, hgranted, fun _ => ⟨hstate, rfl⟩,
      fun h => absurd (.inl hseek) h⟩
    rw [← hcall]
    exact if_pos hseek
  by_cases hread : toInt (readResult data).value = 0
  · refine ⟨none, heap', answer, ?_, hvalid, hgranted, fun _ => ⟨hstate, rfl⟩,
      fun h => absurd (.inr hread) h⟩
    rw [← hcall]
    exact (if_neg hseek).trans (if_pos hread)
  · refine ⟨_, heap, _, (if_neg hseek).trans (if_neg hread), ?_, hgranted, fun h => ?_, fun _ => rfl⟩
    · rw [setBuffer_eq hs hfiles]
      exact hs.replace hfiles hdistinct ⟨rest, hperm⟩
    · exact absurd h (not_or.2 ⟨hseek, hread⟩)

theorem Answered.of_read
    (hrefused : (Call.bspRead handle offset buffer size seek data errno).refused = false)
    (hunlisted : ¬Listed s handle → answer.state = .resourceNotAvailable ∧ s'.files = s.files)
    (hfails : Listed s handle → (seek = .failed ∨ data = none) →
      answer.state ≠ .ok ∧ entries s' = entries s) :
    Answered s (.bspRead handle offset buffer size seek data errno) s' answer where
  refused h := absurd (h.symm.trans hrefused) Bool.noConfusion
  unlisted handle' hhandle _ hlisted := by
    obtain rfl : handle = handle' := Option.some.inj hhandle
    exact hunlisted hlisted
  openFails h := by cases h
  ioFails handle' hhandle hlisted h := by
    obtain rfl : handle = handle' := Option.some.inj hhandle
    exact hfails hlisted (by simpa [Call.ioFails] using h)
  closed _ _ h := by cases h

/-- Without an element a read has no result. -/
theorem bspRead_of_not_found (h : found s handle = none)
    (hrefused : (Call.bspRead handle offset buffer size seek data errno).refused = false) :
    bspRead c s handle offset buffer size seek data errno = none := by
  have hparams : ¬(buffer ≠ some none ∨ ¬size = true ∨ handle = invalidHandle) := by
    simpa [Call.refused, not_or, and_assoc] using hrefused
  rw [bspRead, if_neg hparams]
  by_cases hsearch : Searchable s handle
  · rw [findFile_of_not_found hsearch h]
    rfl
  · rw [findFile_of_not_searchable hsearch]
    rfl

/-- **A read is as claimed exactly when it meets its condition.** -/
theorem bspRead_sound_iff (hs : Valid s)
    (hrefused : (Call.bspRead handle offset buffer size seek data errno).refused = false) :
    Sound c s (.bspRead handle offset buffer size seek data errno) ↔
      ReadWithin s handle offset seek data errno := by
  cases hfound : found s handle with
  | none =>
    refine iff_of_false (not_sound_of_none (bspRead_of_not_found hfound hrefused)) ?_
    rintro ⟨x, hx, -⟩
    rw [hfound] at hx
    cases hx
  | some x =>
    have hwithin : ReadWithin s handle offset seek data errno ↔
        (x.memoryBuffer = none → s.heap.Granted 1) ∧
        (x.posixFd = handle → seekFails seek offset = true ∨ data ≠ none) ∧
        (x.posixFd ≠ handle → ReadFails offset seek data ∧ errno2State errno = .resourceNotAvailable ∧
          x.memoryBuffer = none) := by
      unfold ReadWithin ReadFails
      rw [hfound]
      simp
    have hlisted := hs.listed_iff_of_found hfound
    rw [hwithin]
    obtain ⟨before, behind, hfiles, -, -⟩ := found_split hfound
    rcases bspRead_cases hs hfound hrefused with
      ⟨hnone, hgranted⟩ | ⟨block, heap, answer, hcall, -, hgranted, hfails, hworks⟩
    · exact iff_of_false (not_sound_of_none hnone) fun h => hgranted h.1
    constructor
    · rintro ⟨s', answer', hcall', hanswered⟩
      obtain ⟨rfl, rfl⟩ := Prod.mk.inj (Option.some.inj (hcall.symm.trans hcall'))
      refine ⟨hgranted, fun hfd => ?_, fun hfd => ?_⟩
      · by_contra hneither
        obtain ⟨hseek, hdata⟩ := not_or.1 hneither
        have hdata : data = none := not_not.1 hdata
        have hio := hanswered.ioFails handle rfl (hlisted.2 hfd) (by simp [Call.ioFails, hdata])
        -- the count of -1 is not 0, and is taken for a success
        refine hio.1 (hworks ?_)
        rintro (h | h)
        · exact hseek h
        · rw [hdata] at h
          exact absurd h (by decide)
      · have hunlisted := hanswered.unlisted handle rfl hrefused (fun h => hfd (hlisted.1 h))
        by_cases hread : ReadFails offset seek data
        · obtain ⟨hstate, rfl⟩ := hfails hread
          refine ⟨hread, hstate.symm.trans hunlisted.1, ?_⟩
          have hsame := hunlisted.2
          rw [setBuffer_eq hs hfiles, hfiles] at hsame
          have hx := (List.cons.inj (List.append_cancel_left hsame)).1
          exact (congrArg Container.memoryBuffer hx).symm
        · exact absurd ((hworks hread).symm.trans hunlisted.1) BspState.noConfusion
    · rintro ⟨-, hown, hother⟩
      refine ⟨_, answer, hcall, .of_read hrefused (fun h => ?_) fun h hio => ?_⟩
      · obtain ⟨hread, hstate, hbuffer⟩ := hother fun hfd => h (hlisted.2 hfd)
        obtain ⟨hanswer, rfl⟩ := hfails hread
        refine ⟨hanswer.trans hstate, ?_⟩
        have hx : { x with memoryBuffer := none } = x := by rw [← hbuffer]
        show setBuffer s.files x none = s.files
        rw [setBuffer_eq hs hfiles, hx, hfiles]
      · have hread : ReadFails offset seek data := by
          rcases hown (hlisted.1 h) with hseek | hdata
          · exact .inl hseek
          · rw [hio.resolve_right hdata]
            exact .inl (seekFails_failed offset)
        rw [(hfails hread).1]
        exact ⟨errno2State_ne_ok errno, entries_setBuffer s.files x block heap⟩

/-! ## Writing -/

variable {present bytesWritten : Bool} {length : Nat}

/-- `lseek` or `write` has not done what it should, as the function sees it. -/
def WriteFails (c : SizeT) (length offset : Nat) (seek write : PosixResult) : Prop :=
  seekFails seek offset = true ∨ length ≠ toSizeT c write.value

/-- **A write** does not touch the list. -/
theorem bspWrite_cases (hs : Valid s)
    (hrefused : (Call.bspWrite handle present length offset bytesWritten seek write errno).refused = false) :
    (bspWrite c s handle present length offset bytesWritten seek write errno = none ∧
        ¬(Searchable s handle ∧
          ∀ x ∈ found s handle, seekFails seek offset = true ∨ bytesWritten = true)) ∨
      ∃ answer,
        bspWrite c s handle present length offset bytesWritten seek write errno = some (s, answer) ∧
        Searchable s handle ∧ (found s handle = none → answer.state = .resourceNotAvailable) ∧
        ∀ x ∈ found s handle, (seekFails seek offset = true ∨ bytesWritten = true) ∧
          (WriteFails c length offset seek write → answer.state = errno2State errno) ∧
          (¬WriteFails c length offset seek write → answer.state = .ok) := by
  have hparams : ¬(¬present = true ∨ length = 0 ∨ handle = invalidHandle) := by
    simpa [Call.refused, not_or, and_assoc] using hrefused
  rw [bspWrite, if_neg hparams]
  cases hfound : found s handle with
  | none =>
    by_cases hsearch : Searchable s handle
    · rw [findFile_of_not_found hsearch hfound]
      exact .inr ⟨_, rfl, hsearch, fun _ => rfl, fun x hx => by cases hx⟩
    · rw [findFile_of_not_searchable hsearch]
      exact .inl ⟨rfl, fun h => hsearch h.1⟩
  | some x =>
    have hsearch := hs.searchable hfound
    rw [findFile_of_found hs hfound, Option.bind_some, if_neg (by simp)]
    by_cases hseek : seekFails seek offset = true
    · refine .inr ⟨_, if_pos hseek, hsearch, (fun h => by cases h),
        fun y _ => ⟨.inl hseek, fun _ => rfl, ?_⟩⟩
      exact fun h => absurd (.inl hseek) h
    rw [if_neg hseek]
    by_cases hplace : bytesWritten = true
    · rw [if_neg (not_not.2 hplace)]
      by_cases hcount : length ≠ toSizeT c write.value
      · refine .inr ⟨_, if_pos hcount, hsearch, (fun h => by cases h),
          fun y _ => ⟨.inr hplace, fun _ => rfl, ?_⟩⟩
        exact fun h => absurd (.inr hcount) h
      · refine .inr ⟨_, if_neg hcount, hsearch, (fun h => by cases h),
          fun y _ => ⟨.inr hplace, ?_, fun _ => rfl⟩⟩
        exact fun h => absurd h (not_or.2 ⟨hseek, hcount⟩)
    · rw [if_pos hplace]
      refine .inl ⟨rfl, fun h => ?_⟩
      rcases h.2 x rfl with h | h
      · exact hseek h
      · exact hplace h

theorem Answered.of_write
    (hrefused : (Call.bspWrite handle present length offset bytesWritten seek write errno).refused = false)
    (hunlisted : ¬Listed s handle → answer.state = .resourceNotAvailable)
    (hfails : Listed s handle → (seek = .failed ∨ write = .failed) → answer.state ≠ .ok) :
    Answered s (.bspWrite handle present length offset bytesWritten seek write errno) s answer where
  refused h := absurd (h.symm.trans hrefused) Bool.noConfusion
  unlisted handle' hhandle _ hlisted := by
    obtain rfl : handle = handle' := Option.some.inj hhandle
    exact ⟨hunlisted hlisted, rfl⟩
  openFails h := by cases h
  ioFails handle' hhandle hlisted h := by
    obtain rfl : handle = handle' := Option.some.inj hhandle
    exact ⟨hfails hlisted (by simpa [Call.ioFails] using h), rfl⟩
  closed _ _ h := by cases h

/-- **A write is as claimed exactly when it meets its condition.** -/
theorem bspWrite_sound_iff (hs : Valid s)
    (hrefused : (Call.bspWrite handle present length offset bytesWritten seek write errno).refused = false) :
    Sound c s (.bspWrite handle present length offset bytesWritten seek write errno) ↔
      WriteWithin c s handle length offset bytesWritten seek write errno := by
  rcases bspWrite_cases (c := c) hs hrefused with
    ⟨hnone, hnot⟩ | ⟨answer, hcall, hsearch, hmissing, hfound⟩
  · exact iff_of_false (not_sound_of_none hnone) fun h => hnot ⟨h.1, fun x hx => (h.2 x hx).1⟩
  have hlisted {x : Container} (hx : found s handle = some x) := hs.listed_iff_of_found hx
  constructor
  · rintro ⟨s', answer', hcall', hanswered⟩
    obtain ⟨rfl, rfl⟩ := Prod.mk.inj (Option.some.inj (hcall.symm.trans hcall'))
    refine ⟨hsearch, fun x hx => ?_⟩
    obtain ⟨hplace, hfails, hworks⟩ := hfound x hx
    refine ⟨hplace, fun hfd => ?_, fun hfd => ?_⟩
    · by_contra hneither
      obtain ⟨hseek, hneither⟩ := not_or.1 hneither
      obtain ⟨hwrite, hlength⟩ := not_or.1 hneither
      have hwrite : write = .failed := not_not.1 hwrite
      have hio := hanswered.ioFails handle rfl ((hlisted hx).2 hfd) (by simp [Call.ioFails, hwrite])
      refine hio.1 (hworks ?_)
      rintro (h | h)
      · exact hseek h
      · exact hlength (hwrite ▸ h)
    · have hunlisted := hanswered.unlisted handle rfl hrefused (fun h => hfd ((hlisted hx).1 h))
      by_cases hwrite : WriteFails c length offset seek write
      · exact ⟨hwrite, (hfails hwrite).symm.trans hunlisted.1⟩
      · exact absurd ((hworks hwrite).symm.trans hunlisted.1) BspState.noConfusion
  · rintro ⟨-, hwithin⟩
    refine ⟨s, answer, hcall, .of_write hrefused (fun h => ?_) fun h hio => ?_⟩
    · cases hx : found s handle with
      | none => exact hmissing hx
      | some x =>
        obtain ⟨hwrite, hstate⟩ := (hwithin x hx).2.2 fun hfd => h ((hlisted hx).2 hfd)
        exact ((hfound x hx).2.1 hwrite).trans hstate
    · obtain ⟨x, hx, hfd⟩ := hs.listed_iff.1 h
      have hwrite : WriteFails c length offset seek write := by
        rcases hio with rfl | rfl
        · exact .inl (seekFails_failed offset)
        · rcases (hwithin x hx).2.1 hfd with hseek | hne | hlength
          · exact .inl hseek
          · exact absurd rfl hne
          · exact .inr hlength
      rw [(hfound x hx).2.1 hwrite]
      exact errno2State_ne_ok errno

/-! ## Closing -/

/-- **A close** takes the element that is found out of the list, and releases its blocks. -/
theorem bspClose_cases (hs : Valid s) (close : PosixResult) (errno : Errno)
    (hvalid : handle ≠ invalidHandle) :
    (bspClose s handle close errno = none ∧ ¬Searchable s handle) ∨
      (bspClose s handle close errno = some (s, { state := .resourceNotAvailable }) ∧
        Searchable s handle ∧ found s handle = none) ∨
      ∃ before x behind heap answer, found s handle = some x ∧ s.files = before ++ x :: behind ∧
        (∀ y ∈ before, y.posixFd ≠ toInt handle) ∧ x.posixFd = toInt handle ∧
        bspClose s handle close errno = some (⟨before ++ behind, heap⟩, answer) ∧
        s.heap.blocks.Perm (x.blocks ++ heap.blocks) ∧ Valid ⟨before ++ behind, heap⟩ := by
  rw [bspClose, if_neg hvalid]
  cases hfound : found s handle with
  | none =>
    by_cases hsearch : Searchable s handle
    · rw [findFile_of_not_found hsearch hfound]
      exact .inr (.inl ⟨rfl, hsearch, rfl⟩)
    · rw [findFile_of_not_searchable hsearch]
      exact .inl ⟨rfl, hsearch⟩
  | some x =>
    obtain ⟨before, behind, hfiles, hx, hbefore⟩ := found_split hfound
    obtain ⟨rest, hperm⟩ := hs.split hfiles
    obtain ⟨heap, hrelease, hperm', hnext⟩ := Heap.releaseAll_perm hperm
    have hfreed : s.heap.blocks.Perm (x.blocks ++ heap.blocks) :=
      hperm.trans (hperm'.symm.append_left x.blocks)
    refine .inr (.inr ⟨before, x, behind, heap,
      { state := if toInt close.value ≠ 0 then errno2State errno else .ok }, rfl, hfiles, hbefore, hx,
      ?_, hfreed, ⟨rest, hperm'⟩, hs.distinct.of_perm hfreed hnext, fun y hy => hs.fd y ?_⟩)
    · rw [findFile_of_found hs hfound, Option.bind_some]
      simp only [hrelease, Option.map_some, eraseP_eq hs hfiles]
    · rw [hfiles]
      rcases List.mem_append.1 hy with hy | hy
      · exact List.mem_append_left _ hy
      · exact List.mem_append_right _ (List.mem_cons_of_mem _ hy)

/-- **A close is as claimed exactly when it meets its condition.** -/
theorem bspClose_sound_iff (hs : Valid s) (close : PosixResult) (errno : Errno)
    (hvalid : handle ≠ invalidHandle) :
    Sound c s (.bspClose handle close errno) ↔ CloseWithin s handle := by
  have hrefused : (Call.bspClose handle close errno).refused = false := by
    simpa [Call.refused] using hvalid
  rcases bspClose_cases hs close errno hvalid with
    ⟨hnone, hnot⟩ | ⟨hcall, hsearch, hfound⟩ |
    ⟨before, x, behind, heap, answer, hfound, hfiles, hbefore, hx, hcall, hfreed, -⟩
  · exact iff_of_false (not_sound_of_none hnone) fun h => hnot h.1
  · have hnot : ¬Listed s handle := by
      rw [hs.listed_iff, hfound]
      simp
    refine iff_of_true ⟨s, _, hcall, ?_⟩ ⟨hsearch, fun x hx => by rw [hfound] at hx; cases hx⟩
    refine ⟨fun h => ?_, fun _ _ _ _ => ⟨rfl, rfl⟩, fun h => (by cases h),
      fun _ _ _ h => (by cases h), ?_⟩
    · exact absurd (h.symm.trans hrefused) Bool.noConfusion
    · intro handle' hhandle _ hlisted
      obtain rfl : handle = handle' := Option.some.inj hhandle
      exact absurd hlisted hnot
  · have hwithin : CloseWithin s handle ↔ x.posixFd = handle := by
      unfold CloseWithin
      rw [hfound]
      refine ⟨fun h => h.2 x rfl, fun h => ⟨hs.searchable hfound, fun y hy => ?_⟩⟩
      obtain rfl := Option.some.inj hy
      exact h
    have hlisted := hs.listed_iff_of_found hfound
    rw [hwithin]
    constructor
    · rintro ⟨s', answer', hcall', hanswered⟩
      obtain ⟨rfl, rfl⟩ := Prod.mk.inj (Option.some.inj (hcall.symm.trans hcall'))
      by_contra hfd
      -- the element of another handle has left the list
      have hsame := (hanswered.unlisted handle rfl hrefused fun h => hfd (hlisted.1 h)).2
      rw [hfiles] at hsame
      have hlength := congrArg List.length hsame
      simp only [List.length_append, List.length_cons] at hlength
      omega
    · intro hfd
      refine ⟨_, answer, hcall, ⟨fun h => ?_, fun handle' hhandle _ h => ?_, fun h => (by cases h),
        fun _ _ _ h => (by cases h), fun handle' hhandle _ _ => ?_⟩⟩
      · exact absurd (h.symm.trans hrefused) Bool.noConfusion
      · obtain rfl : handle = handle' := Option.some.inj hhandle
        exact absurd (hlisted.2 hfd) h
      · obtain rfl : handle = handle' := Option.some.inj hhandle
        refine ⟨before, x, behind, hfiles, hfd, fun y hy => ?_, rfl, hfreed⟩
        rw [← hfd, hx]
        exact hbefore y hy

/-! ## Runs -/

/-- Refused parameters are reported, and nothing else happens. -/
theorem call_of_refused (c : SizeT) (s : State) {e : Call} (h : e.refused = true) :
    ∃ answer, call c s e = some (s, answer) ∧ answer.state = .invalidParameter := by
  cases e with
  | bspOpen resourceName resourceHandleOut openFlags result errno =>
    simp only [Call.refused, Bool.or_eq_true, Bool.not_eq_true', decide_eq_true_eq] at h
    show ∃ answer, bspOpen _ _ _ _ _ _ = _ ∧ _
    unfold bspOpen
    by_cases hnull : ¬resourceName = true ∨ ¬resourceHandleOut = true
    · exact ⟨_, if_pos hnull, rfl⟩
    · have hflags : openFlags &&& openAppend = openAppend :=
        h.resolve_left fun hor => hnull (by simpa using hor)
      exact ⟨_, (if_neg hnull).trans (if_pos hflags), rfl⟩
  | bspRead handle offset buffer size seek data errno =>
    exact ⟨_, if_pos (by simpa [Call.refused, or_assoc] using h), rfl⟩
  | bspWrite handle present length offset bytesWritten seek write errno =>
    exact ⟨_, if_pos (by simpa [Call.refused, or_assoc] using h), rfl⟩
  | bspClose handle close errno => exact ⟨_, if_pos (by simpa [Call.refused] using h), rfl⟩

/-- **Every call that returns keeps the invariant.** -/
theorem Valid.call (hs : Valid s) {e : Call} (h : call c s e = some (s', answer)) : Valid s' := by
  cases hrefused : e.refused with
  | true =>
    obtain ⟨answer', hcall, -⟩ := call_of_refused c s hrefused
    obtain ⟨rfl, -⟩ := Prod.mk.inj (Option.some.inj (hcall.symm.trans h))
    exact hs
  | false =>
    cases e with
    | bspOpen resourceName resourceHandleOut openFlags result errno =>
      have h : bspOpen s resourceName resourceHandleOut openFlags result errno = some (s', answer) := h
      rcases bspOpen_cases hs resourceName resourceHandleOut openFlags result errno with
        ⟨answer', hcall, -⟩ | ⟨-, -, ⟨hcall, -⟩ | ⟨s₁, answer', hcall, hvalid, -⟩⟩
      · obtain ⟨rfl, -⟩ := Prod.mk.inj (Option.some.inj (hcall.symm.trans h))
        exact hs
      · exact absurd (hcall.symm.trans h) (by simp)
      · obtain ⟨rfl, -⟩ := Prod.mk.inj (Option.some.inj (hcall.symm.trans h))
        exact hvalid
    | bspRead handle offset buffer size seek data errno =>
      have h : bspRead c s handle offset buffer size seek data errno = some (s', answer) := h
      cases hfound : found s handle with
      | none => exact absurd ((bspRead_of_not_found hfound hrefused).symm.trans h) (by simp)
      | some x =>
        rcases bspRead_cases (c := c) hs hfound hrefused with
          ⟨hcall, -⟩ | ⟨block, heap, answer', hcall, hvalid, -⟩
        · exact absurd (hcall.symm.trans h) (by simp)
        · obtain ⟨rfl, -⟩ := Prod.mk.inj (Option.some.inj (hcall.symm.trans h))
          exact hvalid
    | bspWrite handle present length offset bytesWritten seek write errno =>
      have h :
          bspWrite c s handle present length offset bytesWritten seek write errno = some (s', answer) := h
      rcases bspWrite_cases (c := c) hs hrefused with ⟨hcall, -⟩ | ⟨answer', hcall, -⟩
      · exact absurd (hcall.symm.trans h) (by simp)
      · obtain ⟨rfl, -⟩ := Prod.mk.inj (Option.some.inj (hcall.symm.trans h))
        exact hs
    | bspClose handle close errno =>
      have h : bspClose s handle close errno = some (s', answer) := h
      rcases bspClose_cases hs close errno (by simpa [Call.refused] using hrefused) with
        ⟨hcall, -⟩ | ⟨hcall, -⟩ | ⟨before, x, behind, heap, answer', -, -, -, -, hcall, -, hvalid⟩
      · exact absurd (hcall.symm.trans h) (by simp)
      · obtain ⟨rfl, -⟩ := Prod.mk.inj (Option.some.inj (hcall.symm.trans h))
        exact hs
      · obtain ⟨rfl, -⟩ := Prod.mk.inj (Option.some.inj (hcall.symm.trans h))
        exact hvalid

theorem Valid.step (hs : Valid s) {e : Call} (h : step c s e = some s') : Valid s' := by
  obtain ⟨⟨s₁, answer⟩, hcall, rfl⟩ := Option.map_eq_some_iff.1 h
  exact hs.call hcall

/-- A call is as claimed exactly when its parameters are refused or it meets the condition. -/
theorem sound_iff (hs : Valid s) (e : Call) : Sound c s e ↔ e.refused = true ∨ Within c s e := by
  cases hrefused : e.refused with
  | true =>
    obtain ⟨answer, hcall, hstate⟩ := call_of_refused c s hrefused
    exact iff_of_true ⟨s, answer, hcall, .of_refused hs hrefused hstate⟩ (.inl rfl)
  | false =>
    simp only [Bool.false_eq_true, false_or]
    cases e with
    | bspOpen resourceName resourceHandleOut openFlags result errno =>
      rw [bspOpen_sound_iff hs, hrefused]
      simp [Within]
    | bspRead handle offset buffer size seek data errno => exact bspRead_sound_iff hs hrefused
    | bspWrite handle present length offset bytesWritten seek write errno =>
      exact bspWrite_sound_iff hs hrefused
    | bspClose handle close errno =>
      exact bspClose_sound_iff hs close errno (by simpa [Call.refused] using hrefused)

/-- No file is open. `answers` are those of the allocator. -/
def State.start (answers : List Bool) : State := ⟨[], ⟨[], 1, answers⟩⟩

theorem valid_start (answers : List Bool) : Valid (.start answers) :=
  ⟨⟨[], .refl _⟩, ⟨List.nodup_nil, fun _ h => by cases h⟩, fun _ h => by cases h⟩

/-- **The calls of a run are as claimed exactly when all of them have refused parameters or meet the
condition.** -/
theorem calls_sound_iff (c : SizeT) (answers : List Bool) (es : List Call) :
    AllSteps (step c) (Sound c) (.start answers) es ↔
      AllSteps (step c) (fun s e => e.refused = true ∨ Within c s e) (.start answers) es :=
  allSteps_iff (fun _ _ _ hs _ h => hs.step h) (fun _ e hs => sound_iff hs e) (valid_start answers)

/-- `iotc_bsp_io_fs_read` with a handle of no file. -/
def readUnlisted : Call := .bspRead 5 0 (some none) true (.returned 0) (some [1]) (.other 0)

/-- `iotc_bsp_io_fs_open` of a file. -/
def openThree : Call := .bspOpen true true 1 (.returned 3) (.other 0)

/-- `iotc_bsp_io_fs_read` of that file, whose `read` fails. -/
def readFailing : Call := .bspRead 3 0 (some none) true (.returned 0) none .ebadf

/-- A read with a handle that is not in the list reads from `NULL`, and one whose `read` fails is
reported as a success with `(size_t)-1` bytes. -/
theorem calls_fail :
    call .bits64 (.start []) readUnlisted = none ∧
      ¬AllSteps (step .bits64) (Sound .bits64) (.start []) [readUnlisted] ∧
      ((run (step .bits64) (.start []) [openThree]).bind fun s =>
        (call .bits64 s readFailing).map fun r => (r.2.state, r.2.bufferSize)) =
          some (.ok, some 18446744073709551615) ∧
      ¬AllSteps (step .bits64) (Sound .bits64) (.start []) [openThree, readFailing] := by
  have hnone : call .bits64 (.start []) readUnlisted = none := by decide
  refine ⟨hnone, fun h => not_sound_of_none hnone h.1, by decide, ?_⟩
  rintro ⟨-, h⟩
  obtain ⟨⟨s', answer, hcall, hanswered⟩, -⟩ := h ⟨[⟨1, 3, none⟩], ⟨[1], 2, []⟩⟩ (by decide)
  have hok : answer.state = .ok := by
    have hstate := congrArg (Option.map fun r : State × Answer => r.2.state) hcall
    exact (Option.some.inj hstate).symm
  have hlisted : Listed ⟨[⟨1, 3, none⟩], ⟨[1], 2, []⟩⟩ 3 := ⟨_, List.mem_cons_self, rfl⟩
  exact (hanswered.ioFails 3 rfl hlisted rfl).1 hok

end IotDeviceSdk.FsPosix
