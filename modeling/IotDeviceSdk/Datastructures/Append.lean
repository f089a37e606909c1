import IotDeviceSdk.Datastructures.DataDesc

/-!
# Appending to a descriptor (`iotc_data_desc_append_data_resize`)

`Appendable` says for which descriptors and lengths an append does what it has to. It does not

* for a buffer that is not managed and has room: that is written to;
* if more than `2 ^ 31` bytes are needed and the allocator has a block of the capacity that
  `iotc_data_desc_find_pow2_capacity` computes then, which is 0 or the old one;
* if the new length has no place in 32 bits and `size_t` has not more.
-/

namespace IotDeviceSdk.Datastructures

open Infra

namespace DataDesc

variable {σ : SizeT} {m m' : Blocks UInt8} {desc desc' : DataDesc} {data : Bytes} {mem : Bool}
  {s : IotcState}

/-- The bytes of a descriptor. -/
def content (m : Blocks UInt8) (desc : DataDesc) : Option Bytes :=
  m.load desc.dataPtr 0 desc.length.toNat

/-- A descriptor of a block that has its capacity. -/
structure Valid (m : Blocks UInt8) (desc : DataDesc) : Prop where
  block : ∃ xs, m.block desc.dataPtr = some xs ∧ xs.length = desc.capacity.toNat
  length_le : desc.length.toNat ≤ desc.capacity.toNat
  known : desc.memoryType ≠ .unknown

/-- A descriptor of a block that has at least its capacity, as for a capacity that was cut to 32 bits. -/
structure Backed (σ : SizeT) (m : Blocks UInt8) (desc : DataDesc) : Prop where
  block : ∃ xs, m.block desc.dataPtr = some xs ∧ desc.capacity.toNat ≤ xs.length ∧
    xs.length < σ.size
  length_le : desc.length.toNat ≤ desc.capacity.toNat
  known : desc.memoryType ≠ .unknown

theorem Valid.backed (hv : desc.Valid m) : desc.Backed σ m where
  block := by
    obtain ⟨xs, hxs, hlen⟩ := hv.block
    refine ⟨xs, hxs, Nat.le_of_eq hlen.symm, ?_⟩
    rw [hlen]
    exact Nat.lt_of_lt_of_le desc.capacity.toNat_lt σ.le_size
  length_le := hv.length_le
  known := hv.known

/-- **What is claimed of an append**: with `OK` the bytes follow the old ones, within the capacity; else
nothing has changed; and a buffer that is not managed is neither written nor freed. -/
structure Appended (m : Blocks UInt8) (desc : DataDesc) (data : Bytes) (m' : Blocks UInt8)
    (desc' : DataDesc) (s : IotcState) : Prop where
  ok : s = .ok → desc'.Valid m' ∧ desc'.content m' = (desc.content m).map (· ++ data)
  failed : s ≠ .ok → desc' = desc ∧ m'.block = m.block ∧ m'.written = m.written
  shared : desc.memoryType = .unmanaged → m'.block desc.dataPtr = m.block desc.dataPtr ∧
    m'.written.count desc.dataPtr = m.written.count desc.dataPtr

/-- An append has a result, and it is as claimed. -/
def Appends (σ : SizeT) (m : Blocks UInt8) (desc : DataDesc) (data : Bytes) (mem : Bool) : Prop :=
  ∃ m' desc' s, appendDataResize σ m (some desc) (some data) mem = some (m', some desc', s) ∧
    Appended m desc data m' desc' s

/-- The bytes that are needed. -/
def needed (desc : DataDesc) (len : Nat) : Nat := desc.length.toNat + len

/-- **The condition on the lengths**: the bytes have room in a buffer that is managed, or a request of at
most `2 ^ 31` bytes is made; or the allocator refuses the request. -/
def Appendable (σ : SizeT) (desc : DataDesc) (len : Nat) (mem : Bool) : Prop :=
  if desc.needed len ≤ desc.capacity.toNat then desc.memoryType = .managed ∨ len = 0
  else desc.needed len ≤ 2 ^ 31 ∨ mem = false ∧ (desc.needed len < 2 ^ 32 ∨ σ = .bits64)

instance (σ : SizeT) (desc : DataDesc) (len : Nat) (mem : Bool) :
    Decidable (Appendable σ desc len mem) :=
  inferInstanceAs (Decidable (if desc.needed len ≤ desc.capacity.toNat then
    desc.memoryType = .managed ∨ len = 0
  else desc.needed len ≤ 2 ^ 31 ∨ mem = false ∧ (desc.needed len < 2 ^ 32 ∨ σ = .bits64)))

/-! ## The cells of a buffer -/

theorem content_eq (desc : DataDesc) {xs : Bytes} (hxs : m.block desc.dataPtr = some xs)
    (hle : desc.length.toNat ≤ xs.length) : desc.content m = some (xs.take desc.length.toNat) := by
  rw [content, Blocks.load_eq hxs (by omega), List.drop_zero]

theorem Backed.content_eq (hb : desc.Backed σ m) {xs : Bytes}
    (hxs : m.block desc.dataPtr = some xs) :
    desc.content m = some (xs.take desc.length.toNat) := by
  obtain ⟨ys, hys, hcap, -⟩ := hb.block
  obtain rfl := Option.some.inj (hxs.symm.trans hys)
  exact DataDesc.content_eq desc hys (Nat.le_trans hb.length_le hcap)

/-- The cells after the bytes have been stored behind the old ones. -/
theorem take_stored (xs : Bytes) {n : Nat} (hn : n ≤ xs.length) (tail : Bytes) :
    (xs.take n ++ (data ++ tail)).take (n + data.length) = xs.take n ++ data := by
  have hlen : (xs.take n ++ data).length = n + data.length := by
    rw [List.length_append, List.length_take, Nat.min_eq_left hn]
  rw [← List.append_assoc, ← hlen, List.take_left]

theorem length_stored (xs : Bytes) {n : Nat} (hn : n + data.length ≤ xs.length) :
    (xs.take n ++ (data ++ xs.drop (n + data.length))).length = xs.length := by
  simp only [List.length_append, List.length_take, List.length_drop]
  omega

/-- The length after an append, as long as it has a place in 32 bits. -/
theorem length_add (desc : DataDesc) {len : Nat} (h : desc.needed len < 2 ^ 32) :
    (desc.length + .ofNat len).toNat = desc.needed len := by
  unfold needed at h ⊢
  have hlen : (UInt32.ofNat len).toNat = len := by
    rw [UInt32.toNat_ofNat']
    exact Nat.mod_eq_of_lt (Nat.lt_of_le_of_lt (Nat.le_add_left ..) h)
  rw [UInt32.toNat_add, hlen, Nat.mod_eq_of_lt h]

/-! ## Bytes that have room -/

theorem willItFit_iff (hlen : desc.needed data.length < 2 ^ 32) :
    desc.willItFit σ data.length = true ↔ desc.needed data.length ≤ desc.capacity.toNat := by
  have hlt := Nat.lt_of_lt_of_le hlen σ.le_size
  unfold needed at hlt ⊢
  rw [willItFit, Nat.mod_eq_of_lt hlt]
  simp

/-- The bytes are stored to the buffer. -/
theorem append_fits (mem : Bool) (hb : desc.Backed σ m) {xs : Bytes}
    (hxs : m.block desc.dataPtr = some xs) (hroom : desc.needed data.length ≤ desc.capacity.toNat) :
    ∃ m' ys, appendDataResize σ m (some desc) (some data) mem =
        some (m', some { desc with length := desc.length + .ofNat data.length }, .ok) ∧
      m'.block desc.dataPtr = some ys ∧ ys.length = xs.length ∧
      { desc with length := desc.length + .ofNat data.length : DataDesc }.content m' =
        (desc.content m).map (· ++ data) ∧
      (data = [] → ys = xs) ∧
      m'.written = if data.isEmpty then m.written else m.written ++ [desc.dataPtr] := by
  have hlt : desc.needed data.length < 2 ^ 32 := Nat.lt_of_le_of_lt hroom desc.capacity.toNat_lt
  have hfits : desc.willItFit σ data.length = true := (willItFit_iff hlt).mpr hroom
  obtain ⟨zs, hzs, hcap, -⟩ := hb.block
  obtain rfl := Option.some.inj (hxs.symm.trans hzs)
  have hroom' : desc.length.toNat + data.length ≤ xs.length := Nat.le_trans hroom hcap
  obtain ⟨m', hstore, hblock, -, hwritten⟩ := Blocks.exists_store hxs hroom'
  have hnew := length_add desc hlt
  have hlength := length_stored xs hroom'
  refine ⟨m', _, ?_, hblock, hlength, ?_, fun hnil => ?_, hwritten⟩
  · simp [appendDataResize, assureBufLen, hfits, hstore]
  · rw [content_eq { desc with length := desc.length + .ofNat data.length } hblock
      (by rw [hnew, hlength]; exact hroom'), hnew, hb.content_eq hxs, Option.map_some]
    exact congrArg some (take_stored xs (by omega) _)
  · rw [hnil]
    simp

/-- There is no result if the bytes are taken to have room, and have none: the sum has no place in a
`size_t`. -/
theorem append_overflows (hb : desc.Backed σ m) (hfits : desc.willItFit σ data.length = true)
    (hno : desc.capacity.toNat < desc.needed data.length) :
    appendDataResize σ m (some desc) (some data) mem = none := by
  obtain ⟨xs, hxs, -, hsize⟩ := hb.block
  have hlarge : σ.size ≤ desc.needed data.length := by
    rw [willItFit, Bool.not_eq_true', decide_eq_false_iff_not, Nat.not_lt] at hfits
    refine Nat.not_lt.mp fun hlt => ?_
    rw [needed] at hno hlt
    rw [Nat.mod_eq_of_lt hlt] at hfits
    omega
  have hstore : m.store desc.dataPtr desc.length.toNat data = none :=
    Blocks.store_eq_none hxs (Nat.lt_of_lt_of_le hsize hlarge)
  simp [appendDataResize, assureBufLen, hfits, hstore]

/-! ## A new buffer -/

/-- The request is refused. -/
theorem append_refused (hb : desc.Backed σ m) (hfits : desc.willItFit σ data.length = false) :
    appendDataResize σ m (some desc) (some data) false = some (m, some desc, .outOfMemory) := by
  simp [appendDataResize, assureBufLen, realloc, hfits, hb.known]

/-- What `iotc_data_desc_realloc` asks the allocator for. -/
def newCapacity (σ : SizeT) (desc : DataDesc) (len : Nat) : UInt32 :=
  pow2ReallocStrategy desc.capacity (.ofNat (desc.needed len % σ.size))

/-- **The buffer is replaced** by one that has at least its capacity. -/
theorem realloc_grows (hb : desc.Backed σ m) (request : UInt32)
    (strategy : UInt32 → UInt32 → UInt32) {xs : Bytes} (hxs : m.block desc.dataPtr = some xs)
    (hcap : desc.capacity.toNat ≤ (strategy desc.capacity request).toNat) :
    ∃ m', realloc m desc request (some strategy) true =
        some (m', ⟨m.next, strategy desc.capacity request, desc.length, .managed⟩, .ok) ∧
      (∃ ys, m'.block m.next = some (xs.take desc.capacity.toNat ++ ys) ∧
        (xs.take desc.capacity.toNat ++ ys).length = (strategy desc.capacity request).toNat) ∧
      (∀ q, q ≠ m.next → q ≠ desc.dataPtr → m'.block q = m.block q) ∧
      (desc.memoryType = .unmanaged → m'.block desc.dataPtr = m.block desc.dataPtr) ∧
      ∃ ws, m'.written = m.written ++ ws ∧ ∀ q ∈ ws, q = m.next := by
  obtain ⟨ys, hys, hlen, -⟩ := hb.block
  obtain rfl := Option.some.inj (hxs.symm.trans hys)
  have hlt := Blocks.lt_next hxs
  have hold := (Blocks.alloc_block_ne m
    (List.replicate (strategy desc.capacity request).toNat 0) (Nat.ne_of_lt hlt)).trans hxs
  obtain ⟨m₁, hcopy, hnew, hother, hwritten⟩ := Blocks.exists_copy (n := desc.capacity.toNat) hold
    (Blocks.alloc_block_self m _) hlen (by rw [List.length_replicate]; exact hcap)
  have hlength : (xs.take desc.capacity.toNat ++
      (List.replicate (strategy desc.capacity request).toNat (0 : UInt8)).drop
        desc.capacity.toNat).length = (strategy desc.capacity request).toNat := by
    simp only [List.length_append, List.length_take, List.length_drop, List.length_replicate]
    omega
  have hws : ∃ ws, m₁.written = m.written ++ ws ∧ ∀ q ∈ ws, q = m.next := by
    rw [hwritten]
    split
    · exact ⟨[], (List.append_nil _).symm, fun q hq => by cases hq⟩
    · exact ⟨[m.next], rfl, fun q hq => List.mem_singleton.mp hq⟩
  have hkept (q : Ptr) (hq : q ≠ m.next) : m₁.block q = m.block q :=
    (hother q hq).trans (Blocks.alloc_block_ne m _ hq)
  cases htype : desc.memoryType with
  | unknown => exact absurd htype hb.known
  | unmanaged =>
    refine ⟨m₁, ?_, ⟨_, hnew, hlength⟩, fun q hq _ => hkept q hq,
      fun _ => hkept _ (Nat.ne_of_lt hlt), hws⟩
    simp [realloc, htype, hcopy]
  | managed =>
    obtain ⟨m₂, hfree, -, hfreed, hsame⟩ :=
      Blocks.exists_free ((hother _ (Nat.ne_of_lt hlt)).trans hold)
    refine ⟨m₂, ?_, ⟨_, ?_, hlength⟩, fun q hq hq' => (hfreed q hq').trans (hkept q hq), nofun, ?_⟩
    · simp [realloc, htype, hcopy, hfree]
    · rw [hfreed _ (Nat.ne_of_gt hlt), hnew]
    · rw [hsame]
      exact hws

/-- The new buffer has not the cells of the old one. -/
theorem realloc_overflows (hb : desc.Backed σ m) (request : UInt32)
    (strategy : UInt32 → UInt32 → UInt32)
    (hcap : (strategy desc.capacity request).toNat < desc.capacity.toNat) :
    realloc m desc request (some strategy) true = none := by
  obtain ⟨xs, hxs, hlen, -⟩ := hb.block
  have hold := (Blocks.alloc_block_ne m
    (List.replicate (strategy desc.capacity request).toNat 0) (Nat.ne_of_lt (Blocks.lt_next hxs))).trans
    hxs
  have hcopy := Blocks.copy_eq_none (n := desc.capacity.toNat) hold (Blocks.alloc_block_self m _)
    hlen (by rw [List.length_replicate]; exact hcap)
  simp [realloc, hb.known, hcopy]

/-- **The bytes follow the old ones in a new buffer** that is large enough. -/
theorem append_grows (hb : desc.Backed σ m) (hfits : desc.willItFit σ data.length = false)
    (hold : desc.capacity.toNat < desc.needed data.length)
    (hcap : desc.needed data.length ≤ (desc.newCapacity σ data.length).toNat) :
    ∃ m' desc', appendDataResize σ m (some desc) (some data) true = some (m', some desc', .ok) ∧
      desc'.capacity = desc.newCapacity σ data.length ∧
      desc'.length = desc.length + .ofNat data.length ∧
      Appended m desc data m' desc' .ok := by
  obtain ⟨xs, hxs, hlen, -⟩ := hb.block
  have hle : desc.length.toNat ≤ (xs.take desc.capacity.toNat).length := by
    rw [List.length_take, Nat.min_eq_left hlen]
    exact hb.length_le
  have hneeded : desc.needed data.length = desc.length.toNat + data.length := rfl
  obtain ⟨m₁, hrealloc, ⟨ys, hnew, hlength⟩, -, hshared, ws, hws, hnext⟩ :=
    realloc_grows hb (.ofNat (desc.needed data.length % σ.size)) pow2ReallocStrategy hxs
      (Nat.le_of_lt (Nat.lt_of_lt_of_le hold hcap))
  have hroom : desc.length.toNat + data.length ≤ (xs.take desc.capacity.toNat ++ ys).length :=
    hlength.symm ▸ hcap
  obtain ⟨m', hstore, hblock, hother, hwritten⟩ := Blocks.exists_store hnew hroom
  have hsum := length_add desc (Nat.lt_of_le_of_lt hcap (UInt32.toNat_lt _))
  have hv' : DataDesc.Valid m' ⟨m.next, desc.newCapacity σ data.length,
      desc.length + .ofNat data.length, .managed⟩ :=
    { block := ⟨_, hblock, (length_stored _ hroom).trans hlength⟩
      length_le := by rw [hsum]; exact hcap
      known := fun h => MemoryType.noConfusion h }
  have hne : desc.dataPtr ≠ m.next := Nat.ne_of_lt (Blocks.lt_next hxs)
  refine ⟨m', ⟨m.next, desc.newCapacity σ data.length, desc.length + .ofNat data.length, .managed⟩,
    ?_, rfl, rfl, fun _ => ⟨hv', ?_⟩, fun h => absurd rfl h, fun h => ⟨?_, ?_⟩⟩
  · have hassure : assureBufLen σ m desc data.length true = some (m₁,
        ⟨m.next, desc.newCapacity σ data.length, desc.length, .managed⟩, .ok) := by
      rw [assureBufLen, if_neg (by rw [hfits]; exact Bool.false_ne_true)]
      exact hrealloc
    simp [appendDataResize, hassure, hstore]
  · have htake : (xs.take desc.capacity.toNat ++ ys).take desc.length.toNat =
        xs.take desc.length.toNat := by
      rw [List.take_append_of_le_length hle, List.take_take, Nat.min_eq_left hb.length_le]
    rw [hv'.backed.content_eq (σ := σ) hblock, hsum, hb.content_eq hxs, Option.map_some, ← htake]
    refine congrArg some (take_stored _ ?_ _)
    rw [List.length_append]
    omega
  · rw [hother _ hne]
    exact hshared h
  · have hzero : ws.count desc.dataPtr = 0 :=
      List.count_eq_zero.mpr fun hmem => hne (hnext _ hmem)
    have hself : ([m.next] : List Ptr).count desc.dataPtr = 0 :=
      List.count_eq_zero.mpr fun hmem => hne (List.mem_singleton.mp hmem)
    rw [hwritten, hws]
    split <;> simp only [List.count_append, hzero, hself, Nat.add_zero]

/-- There is no result if the new buffer is too small. -/
theorem append_too_small (hb : desc.Backed σ m) (hfits : desc.willItFit σ data.length = false)
    (hcap : (desc.newCapacity σ data.length).toNat < desc.needed data.length) :
    appendDataResize σ m (some desc) (some data) true = none := by
  have hassure : assureBufLen σ m desc data.length true =
      realloc m desc (.ofNat (desc.needed data.length % σ.size)) (some pow2ReallocStrategy) true := by
    rw [assureBufLen, if_neg (by rw [hfits]; exact Bool.false_ne_true)]
    rfl
  by_cases hold : (desc.newCapacity σ data.length).toNat < desc.capacity.toNat
  · have hrealloc := realloc_overflows hb (.ofNat (desc.needed data.length % σ.size))
      pow2ReallocStrategy hold
    simp [appendDataResize, hassure, hrealloc]
  · obtain ⟨xs, hxs, hlen, -⟩ := hb.block
    obtain ⟨m₁, hrealloc, ⟨ys, hnew, hlength⟩, -⟩ :=
      realloc_grows hb (.ofNat (desc.needed data.length % σ.size)) pow2ReallocStrategy hxs
        (Nat.not_lt.mp hold)
    have hstore : m₁.store m.next desc.length.toNat data = none :=
      Blocks.store_eq_none hnew (hlength.symm ▸ hcap)
    simp [appendDataResize, hassure, hrealloc, hstore]

/-! ## Which appends return `OK` -/

/-- The new buffer is large enough for at most `2 ^ 31` bytes. -/
theorem needed_le_newCapacity_iff {len : Nat} (h : desc.capacity.toNat < desc.needed len) :
    desc.needed len ≤ (desc.newCapacity σ len).toNat ↔ desc.needed len ≤ 2 ^ 31 := by
  by_cases hplace : desc.needed len < 2 ^ 32
  · have hrequest : (UInt32.ofNat (desc.needed len % σ.size)).toNat = desc.needed len := by
      rw [UInt32.toNat_ofNat', Nat.mod_eq_of_lt (Nat.lt_of_lt_of_le hplace σ.le_size),
        Nat.mod_eq_of_lt hplace]
    have hlarger : desc.capacity < UInt32.ofNat (desc.needed len % σ.size) := by
      rw [UInt32.lt_iff_toNat_lt, hrequest]
      exact h
    obtain ⟨hgrants, hzero⟩ := findPow2Capacity_toNat hlarger
    rw [hrequest] at hgrants hzero
    constructor
    · intro hle
      refine Nat.not_lt.mp fun hlt => ?_
      rw [newCapacity, pow2ReallocStrategy, hzero hlt] at hle
      exact Nat.not_lt.mpr hle (Nat.lt_of_le_of_lt (Nat.zero_le _) h)
    · intro hsmall
      have hle := UInt32.le_iff_toNat_le.mp (hgrants hsmall)
      rwa [hrequest] at hle
  · refine iff_of_false (fun hle => hplace (Nat.lt_of_le_of_lt hle (UInt32.toNat_lt _))) fun hle => ?_
    omega

/-- The bytes have room, or the allocator has a buffer for at most `2 ^ 31`. -/
def Extendable (desc : DataDesc) (len : Nat) (mem : Bool) : Prop :=
  desc.needed len ≤ desc.capacity.toNat ∨ desc.needed len ≤ 2 ^ 31 ∧ mem = true

instance (desc : DataDesc) (len : Nat) (mem : Bool) : Decidable (desc.Extendable len mem) :=
  inferInstanceAs (Decidable (_ ∨ _))

/-- What the largest buffer is that a descriptor can come to. -/
def limit (desc : DataDesc) : Nat := max desc.capacity.toNat (2 ^ 31)

/-- **The bytes follow the old ones**, in a buffer that can grow as far as the old one. -/
theorem append_extends (hb : desc.Backed σ m) (h : desc.Extendable data.length mem) :
    ∃ m' desc', appendDataResize σ m (some desc) (some data) mem = some (m', some desc', .ok) ∧
      desc'.Backed σ m' ∧ desc'.content m' = (desc.content m).map (· ++ data) ∧
      desc'.length.toNat = desc.needed data.length ∧ desc'.limit = desc.limit := by
  obtain ⟨xs, hxs, hcap, hsize⟩ := hb.block
  by_cases hroom : desc.needed data.length ≤ desc.capacity.toNat
  · obtain ⟨m', ys, happend, hblock, hys, hcontent, -⟩ := append_fits (σ := σ) mem hb hxs hroom
    have hsum := length_add desc (Nat.lt_of_le_of_lt hroom desc.capacity.toNat_lt)
    refine ⟨m', _, happend, ⟨⟨ys, hblock, hys ▸ hcap, hys ▸ hsize⟩, ?_, hb.known⟩, hcontent, hsum, rfl⟩
    rw [hsum]
    exact hroom
  · obtain ⟨hsmall, rfl⟩ := h.resolve_left hroom
    have hold := Nat.not_le.mp hroom
    have hfits : desc.willItFit σ data.length = false :=
      Bool.eq_false_iff.mpr fun h => hroom ((willItFit_iff (by omega)).mp h)
    obtain ⟨m', desc', happend, hcapacity, hlength, happended⟩ :=
      append_grows hb hfits hold ((needed_le_newCapacity_iff hold).mpr hsmall)
    refine ⟨m', desc', happend, (happended.ok rfl).1.backed, (happended.ok rfl).2, ?_, ?_⟩
    · rw [hlength]
      exact length_add desc (by omega)
    · have hnew : (desc.newCapacity σ data.length).toNat ≤ 2 ^ 31 := by
        refine findPow2Capacity_le ?_
        rw [UInt32.lt_iff_toNat_lt, UInt32.toNat_ofNat',
          Nat.mod_eq_of_lt (Nat.lt_of_le_of_lt hsmall (Nat.lt_of_lt_of_le (by decide) σ.le_size)),
          Nat.mod_eq_of_lt (Nat.lt_of_le_of_lt hsmall (by decide))]
        exact hold
      rw [limit, limit, hcapacity]
      omega

/-- Otherwise there is no result, or the allocator refuses. -/
theorem append_not_extends (hb : desc.Backed σ m) (h : ¬desc.Extendable data.length mem) :
    appendDataResize σ m (some desc) (some data) mem = none ∨ mem = false ∧
      appendDataResize σ m (some desc) (some data) mem = some (m, some desc, .outOfMemory) := by
  obtain ⟨hroom, hrest⟩ := not_or.mp h
  have hold := Nat.not_le.mp hroom
  cases hfits : desc.willItFit σ data.length with
  | true => exact .inl (append_overflows hb hfits hold)
  | false =>
    cases mem with
    | false => exact .inr ⟨rfl, append_refused hb hfits⟩
    | true =>
      refine .inl (append_too_small hb hfits (Nat.not_le.mp fun hle => hrest ⟨?_, rfl⟩))
      exact (needed_le_newCapacity_iff hold).mp hle

/-! ## New descriptors -/

/-- A descriptor that has been made for a buffer. -/
theorem backed_share (m : Blocks UInt8) {xs : Bytes} (hlt : xs.length < σ.size) :
    DataDesc.Backed σ (m.alloc xs).2 ⟨m.next, .ofNat xs.length, .ofNat xs.length, .unmanaged⟩ where
  block := by
    refine ⟨xs, Blocks.alloc_block_self m xs, ?_, hlt⟩
    rw [UInt32.toNat_ofNat']
    exact Nat.mod_le ..
  length_le := Nat.le_refl _
  known := fun h => MemoryType.noConfusion h

theorem content_share (m : Blocks UInt8) {xs : Bytes} (hlt : xs.length < 2 ^ 32) :
    content (m.alloc xs).2 ⟨m.next, .ofNat xs.length, .ofNat xs.length, .unmanaged⟩ = some xs := by
  have hlen : (UInt32.ofNat xs.length).toNat = xs.length := by
    rw [UInt32.toNat_ofNat', Nat.mod_eq_of_lt hlt]
  refine (content_eq _ (Blocks.alloc_block_self m xs) (Nat.le_of_eq hlen)).trans ?_
  rw [hlen, List.take_length]

/-- A descriptor that has been made for a number of bytes. -/
theorem backed_empty (m : Blocks UInt8) {n : Nat} (hlt : n < σ.size) :
    DataDesc.Backed σ (m.alloc (List.replicate n 0)).2 ⟨m.next, .ofNat n, 0, .managed⟩ where
  block := by
    refine ⟨_, Blocks.alloc_block_self m _, ?_, ?_⟩
    · rw [List.length_replicate, UInt32.toNat_ofNat']
      exact Nat.mod_le ..
    · rw [List.length_replicate]
      exact hlt
  length_le := Nat.zero_le _
  known := fun h => MemoryType.noConfusion h

theorem content_empty (m : Blocks UInt8) (n : Nat) :
    content (m.alloc (List.replicate n 0)).2 ⟨m.next, .ofNat n, 0, .managed⟩ = some [] :=
  (content_eq _ (Blocks.alloc_block_self m _) (Nat.zero_le _)).trans (congrArg some List.take_zero)

/-- Bytes that have room are stored like by an append that may grow. -/
theorem appendBytes_of_fits (hfits : desc.willItFit σ data.length = true) :
    appendBytes σ m (some desc) (some data) = appendDataResize σ m (some desc) (some data) mem := by
  simp only [appendBytes, appendDataResize, assureBufLen, hfits, if_true]
  cases hstore : m.store desc.dataPtr desc.length.toNat data with
  | none => simp [hstore]
  | some m' => simp [hstore]

/-- Bytes that have none are refused. -/
theorem appendBytes_of_not_fits (hfits : desc.willItFit σ data.length = false) :
    appendBytes σ m (some desc) (some data) = some (m, some desc, bufferOverflow) := by
  simp [appendBytes, hfits]

/-! ## Which appends are as claimed -/

/-- Without a result an append is not as claimed. -/
theorem not_appends (h : appendDataResize σ m (some desc) (some data) mem = none) :
    ¬Appends σ m desc data mem := by
  rintro ⟨m', desc', s, hsome, -⟩
  rw [h] at hsome
  cases hsome

/-- An append that has room. -/
theorem appends_fits_iff (hv : desc.Valid m)
    (hroom : desc.needed data.length ≤ desc.capacity.toNat) :
    Appends σ m desc data mem ↔ desc.memoryType = .managed ∨ data.length = 0 := by
  obtain ⟨xs, hxs, hlen⟩ := hv.block
  obtain ⟨m', ys, happend, hblock, hys, hcontent, hnil, hwritten⟩ :=
    append_fits (σ := σ) mem hv.backed hxs hroom
  have hv' : { desc with length := desc.length + .ofNat data.length : DataDesc }.Valid m' :=
    { block := ⟨ys, hblock, hys.trans hlen⟩
      length_le := by
        rw [length_add desc (Nat.lt_of_le_of_lt hroom desc.capacity.toNat_lt)]
        exact hroom
      known := hv.known }
  constructor
  · rintro ⟨m₁, desc₁, s, hsome, happended⟩
    obtain ⟨rfl, -⟩ := Prod.mk.inj (Option.some.inj (hsome.symm.trans happend))
    by_contra hno
    obtain ⟨htype, hne⟩ := not_or.mp hno
    have hunmanaged : desc.memoryType = .unmanaged := by
      cases hmemory : desc.memoryType with
      | unknown => exact absurd hmemory hv.known
      | managed => exact absurd hmemory htype
      | unmanaged => rfl
    have hcount := (happended.shared hunmanaged).2
    have hempty : data.isEmpty = false := by
      rw [List.isEmpty_eq_false_iff]
      exact fun h => hne (List.length_eq_zero_iff.mpr h)
    rw [hwritten, hempty] at hcount
    simp at hcount
  · intro h
    refine ⟨m', _, .ok, happend, fun _ => ⟨hv', hcontent⟩, fun h => absurd rfl h, fun hunmanaged => ?_⟩
    obtain rfl : data = [] := by
      rcases h with h | h
      · exact absurd (h.symm.trans hunmanaged) (by decide)
      · exact List.length_eq_zero_iff.mp h
    exact ⟨by rw [hblock, hxs, hnil rfl], by rw [hwritten]; rfl⟩

/-- An append that needs a new buffer and is refused one. -/
theorem appends_refused (hv : desc.Valid m) (hfits : desc.willItFit σ data.length = false) :
    Appends σ m desc data false :=
  ⟨m, desc, .outOfMemory, append_refused hv.backed hfits, fun h => IotcState.noConfusion h,
    fun _ => ⟨rfl, rfl, rfl⟩, fun _ => ⟨rfl, rfl⟩⟩

/-- **The condition is exact.** -/
theorem appends_iff (hv : desc.Valid m) (hlen : data.length < 2 ^ 32) :
    Appends σ m desc data mem ↔ Appendable σ desc data.length mem := by
  unfold Appendable
  by_cases hroom : desc.needed data.length ≤ desc.capacity.toNat
  · rw [if_pos hroom]
    exact appends_fits_iff hv hroom
  rw [if_neg hroom]
  have hold : desc.capacity.toNat < desc.needed data.length := Nat.not_le.mp hroom
  have hcapacity := desc.capacity.toNat_lt
  have hlength := hv.length_le
  have hneeded : desc.needed data.length = desc.length.toNat + data.length := rfl
  by_cases hplace : desc.needed data.length < 2 ^ 32
  · -- the request is what is needed
    have hfits : desc.willItFit σ data.length = false :=
      Bool.eq_false_iff.mpr fun h => hroom ((willItFit_iff hplace).mp h)
    cases mem with
    | false => exact iff_of_true (appends_refused hv hfits) (.inr ⟨rfl, .inl hplace⟩)
    | true =>
      have hlarge := needed_le_newCapacity_iff (σ := σ) hold
      by_cases hsmall : desc.needed data.length ≤ 2 ^ 31
      · obtain ⟨m', desc', happend, -, -, happended⟩ :=
          append_grows hv.backed hfits hold (hlarge.mpr hsmall)
        exact iff_of_true ⟨m', desc', .ok, happend, happended⟩ (.inl hsmall)
      · refine iff_of_false (not_appends (append_too_small hv.backed hfits ?_)) fun h => ?_
        · exact Nat.not_le.mp fun hle => hsmall (hlarge.mp hle)
        · exact h.elim hsmall fun h => Bool.noConfusion h.1
  · -- the sum is cut to 32 bits, where it is not larger than the capacity
    have hcut : desc.needed data.length % 2 ^ 32 ≤ desc.capacity.toNat := by omega
    have hlarge : ¬desc.needed data.length ≤ 2 ^ 31 := by omega
    cases hσ : σ with
    | bits32 =>
      have hfits : desc.willItFit .bits32 data.length = true := by
        rw [willItFit, Bool.not_eq_true', decide_eq_false_iff_not, Nat.not_lt]
        exact hcut
      refine iff_of_false (not_appends (append_overflows hv.backed hfits hold)) fun h => ?_
      rcases h with h | ⟨-, h | h⟩
      · exact hlarge h
      · exact hplace h
      · cases h
    | bits64 =>
      have hmod : desc.needed data.length % SizeT.bits64.size = desc.needed data.length := by
        rw [show SizeT.bits64.size = 2 ^ 64 from rfl]
        omega
      have hfits : desc.willItFit .bits64 data.length = false := by
        rw [willItFit, ← hneeded, hmod]
        simpa using hold
      cases mem with
      | false => exact iff_of_true (appends_refused hv hfits) (.inr ⟨rfl, .inr rfl⟩)
      | true =>
        refine iff_of_false (not_appends (append_too_small hv.backed hfits ?_)) fun h => ?_
        · exact Nat.not_le.mp fun hle => hlarge ((needed_le_newCapacity_iff hold).mp hle)
        · exact h.elim hlarge fun h => Bool.noConfusion h.1

/-- **Appending, and the growth strategy**: each append is as claimed exactly if it meets the condition,
and the strategy returns at least the capacity that is asked for exactly up to `2 ^ 31`. -/
theorem append_contract (σ : SizeT) (m : Blocks UInt8) (desc : DataDesc) (data : Bytes) (mem : Bool)
    (original desired : UInt32) (hv : desc.Valid m) (hlen : data.length < 2 ^ 32) :
    (Appends σ m desc data mem ↔ Appendable σ desc data.length mem) ∧
      (desired ≤ pow2ReallocStrategy original desired ↔
        desired ≤ original ∨ desired.toNat ≤ 2 ^ 31) :=
  ⟨appends_iff hv hlen, le_pow2ReallocStrategy_iff original desired⟩

/-- A memory with one block of one byte. -/
def oneByte : Blocks UInt8 := (Blocks.empty.alloc [0x61]).2

/-- The descriptor of that byte. -/
def ofOneByte : DataDesc := ⟨0, 1, 1, .managed⟩

theorem ofOneByte_valid : ofOneByte.Valid oneByte where
  block := ⟨[0x61], rfl, rfl⟩
  length_le := by decide
  known := by decide

/-- Two bytes are appended to one. -/
theorem append_contract_two : Appends .bits32 oneByte ofOneByte [0x62, 0x63] true :=
  (append_contract .bits32 oneByte ofOneByte [0x62, 0x63] true 1 3 ofOneByte_valid
    (by decide)).1.mpr (by decide)

/-- **The shift to the next power of two overflows**: for `2 ^ 31 + 1` bytes a buffer of none is
allocated, and the old byte is copied to it. -/
theorem append_contract_fails :
    pow2ReallocStrategy 1 0x80000001 = 0 ∧ ofOneByte.Valid oneByte ∧
      appendDataResize .bits64 oneByte (some ofOneByte) (some (List.replicate (2 ^ 31) 0x62)) true =
        none ∧
      ¬Appends .bits64 oneByte ofOneByte (List.replicate (2 ^ 31) 0x62) true := by
  have hlen : (List.replicate (2 ^ 31) (0x62 : UInt8)).length = 2 ^ 31 := List.length_replicate
  have hnone : appendDataResize .bits64 oneByte (some ofOneByte)
      (some (List.replicate (2 ^ 31) 0x62)) true = none := by
    refine append_too_small ofOneByte_valid.backed ?_ ?_
    · rw [hlen]
      decide
    · rw [hlen]
      decide
  exact ⟨by decide, ofOneByte_valid, hnone, not_appends hnone⟩

end DataDesc

end IotDeviceSdk.Datastructures
