import IotDeviceSdk.Infra.Run
import IotDeviceSdk.MemoryLimiter.Limiter

/-!
# What the memory limiter accounts for

The application keeps a ledger of the blocks it has got and not given back, with the bytes the
platform spent on each. `limiter_accounts` compares it with the limiter after every run: the total
is the sum of the ledger and within the limit, and a call that returns `NULL` changes nothing.

That needs of each step what the code does not check (`Safe`):

* the size of a block and the size of its entry together are a `size_t`;
* when a block is freed, the total and the size of the block keep their difference as `int`s;
* with `IOTC_DEBUG_EXTRA_INFO`, the platform can reallocate a block once it has left the list, and
  the first entry of the list is not freed or reallocated with the `prev` it had further down.
-/

namespace IotDeviceSdk.MemoryLimiter

open Infra

/-! ## Entries and their list -/

/-- `m` holds the entries of the blocks `bs`; where there is a list, it visits them in order. The
first entry may have a `prev` from before. -/
structure Listed (c : Config) (m : Infra.Memory Ptr Nat) (bs : List (Ptr × Nat)) : Prop where
  cells : m.cells.map (fun e => (e.address, e.value)) = bs
  distinct : (bs.map Prod.fst).Nodup
  links : c.debugExtraInfo → ∃ p, m = ⟨firstAddress bs none, linked p bs none⟩

variable {c : Config} {m : Infra.Memory Ptr Nat} {bs : List (Ptr × Nat)}

theorem listed_linked {p : Option Ptr} (h : (bs.map Prod.fst).Nodup) :
    Listed c ⟨firstAddress bs none, linked p bs none⟩ bs :=
  ⟨map_linked bs none p, h, fun _ => ⟨p, rfl⟩⟩

theorem mem_of_read {a : Ptr} {e : Cell Ptr Nat} (h : m.read a = some e) :
    e ∈ m.cells ∧ e.address = a := by
  refine ⟨List.mem_of_find?_eq_some h, ?_⟩
  simpa using List.find?_some h

/-- An entry that can be read is the entry of one block. -/
theorem Listed.split (h : Listed c m bs) {a : Ptr} {e : Cell Ptr Nat} (hread : m.read a = some e) :
    ∃ l r, bs = l ++ (a, e.value) :: r := by
  obtain ⟨hmem, rfl⟩ := mem_of_read hread
  have := List.mem_map_of_mem (f := fun e : Cell Ptr Nat => (e.address, e.value)) hmem
  rw [h.cells] at this
  exact List.append_of_mem this

theorem Listed.read (h : Listed c m bs) {a : Ptr} (ha : a ∈ bs.map Prod.fst) :
    ∃ e, m.read a = some e := by
  rw [← Option.isSome_iff_exists, Infra.Memory.read, List.find?_isSome]
  rw [← h.cells, List.map_map, List.mem_map] at ha
  obtain ⟨e, he, rfl⟩ := ha
  exact ⟨e, he, by simp⟩

/-- The entry of a new block comes first. -/
theorem Listed.setEntry {a : Ptr} {v size : Nat} {n q : Option Ptr} {cells : List (Cell Ptr Nat)}
    (h : Listed c ⟨m.head, cells⟩ bs) (hcells : m.cells = ⟨a, n, q, v⟩ :: cells)
    (ha : a ∉ bs.map Prod.fst) (hn : c.debugExtraInfo → bs = [] → n = none) :
    ∃ m', Limiter.setEntry c m a size = some m' ∧ Listed c m' ((a, size) :: bs) := by
  have hdistinct : (((a, size) :: bs).map Prod.fst).Nodup := by
    rw [List.map_cons, List.nodup_cons]
    exact ⟨ha, h.distinct⟩
  unfold Limiter.setEntry
  split
  · next hdebug =>
    obtain ⟨p, hp⟩ := h.links hdebug
    obtain ⟨hhead, hlinked⟩ := Infra.Memory.mk.inj hp
    rw [pushFront_linked hhead (hcells.trans (by rw [hlinked])) ha h.distinct (hn hdebug),
      Option.bind_some]
    have hwrite := write_cons (m := ⟨some a, linked q ((a, v) :: bs) none⟩)
      (fun e => { e with value := size }) rfl (address_ne_of_notMem ha)
    exact ⟨_, hwrite, listed_linked (p := q) hdistinct⟩
  · next hdebug =>
    have hrest : ∀ e ∈ cells, e.address ≠ a := by
      rintro e he rfl
      have hmem := List.mem_map_of_mem (f := fun e : Cell Ptr Nat => (e.address, e.value)) he
      rw [h.cells] at hmem
      exact ha (List.mem_map_of_mem (f := Prod.fst) hmem)
    refine ⟨_, write_cons _ hcells hrest, ⟨?_, hdistinct, fun h => absurd h hdebug⟩⟩
    rw [List.map_cons, h.cells]

/-- The entry of one block leaves the list of the others, and stays in memory until it is freed. -/
theorem Listed.unlinkEntry {a : Ptr} {v : Nat} {l r : List (Ptr × Nat)} {e : Cell Ptr Nat}
    (h : Listed c m (l ++ (a, v) :: r)) (hread : m.read a = some e)
    (hprev : c.debugExtraInfo → m.head = some a → e.prev = none) :
    ∃ m', Limiter.unlinkEntry c m e = some m' ∧ Listed c (m'.release a) (l ++ r) ∧
      ∃ e', m'.read a = some e' ∧ (c.debugExtraInfo → l ++ r = [] → e'.next = none) := by
  have hdistinct := h.distinct
  rw [List.map_append, List.map_cons, List.nodup_append', List.nodup_cons] at hdistinct
  obtain ⟨hl, ⟨har, hr⟩, hdisjoint⟩ := hdistinct
  have hal : a ∉ l.map Prod.fst := fun h => hdisjoint h List.mem_cons_self
  have hrest : ((l ++ r).map Prod.fst).Nodup := by
    rw [List.map_append, List.nodup_append']
    exact ⟨hl, hr, fun x hx hx' => hdisjoint hx (List.mem_cons_of_mem _ hx')⟩
  unfold Limiter.unlinkEntry
  split
  · next hdebug =>
    obtain ⟨p, rfl⟩ := h.links hdebug
    obtain rfl := Option.some.inj ((read_linked rfl h.distinct).symm.trans hread)
    have hp : l = [] → p = none := by
      rintro rfl
      exact hprev hdebug rfl
    let d : Cell Ptr Nat := ⟨a, firstAddress r none, lastAddress p l, v⟩
    refine ⟨_, unlink_linked rfl rfl h.distinct hp, ?_, d,
      read_append_cons (c := d) rfl (address_ne_of_notMem hal), ?_⟩
    · have hrelease := release_append_cons (c := d)
        (m := ⟨firstAddress (l ++ r) none, _⟩) rfl
        (address_ne_of_notMem (p := p) (n := firstAddress r none) hal)
        (address_ne_of_notMem (p := lastAddress p l) (n := none) har)
      rw [← linked_append] at hrelease
      exact hrelease ▸ listed_linked hrest
    · intro _ hnil
      obtain ⟨_, rfl⟩ := List.append_eq_nil_iff.1 hnil
      rfl
  · next hdebug =>
    refine ⟨m, rfl, ⟨?_, hrest, fun h => absurd h hdebug⟩, e, hread, fun h => absurd h hdebug⟩
    obtain ⟨cs, ds', hcells, hcs, hds'⟩ := List.map_eq_append_iff.1 h.cells
    obtain ⟨d, ds, rfl, hd, hds⟩ := List.map_eq_cons_iff.1 hds'
    obtain ⟨rfl, rfl⟩ := Prod.mk.inj hd
    have hne : ∀ es : List (Cell Ptr Nat), d.address ∉ (es.map fun e => (e.address, e.value)).map
        Prod.fst → ∀ e ∈ es, e.address ≠ d.address := by
      intro es hes e he heq
      exact hes (by simpa using ⟨e, he, heq⟩)
    rw [release_append_cons hcells (hne cs (hcs ▸ hal)) (hne ds (hds ▸ har)), List.map_append,
      hcs, hds]

/-! ## Integers -/

theorem toSize_of_lt {n : Nat} (h : n < 2 ^ 64) : toSize n = n := by
  unfold toSize
  omega

theorem toSize_add {a b : Nat} (h : a + b < 2 ^ 64) : toSize (a + b) = a + b := by
  unfold toSize
  omega

theorem toSize_lt (n : Int) : toSize n < 2 ^ 64 := by
  unfold toSize
  omega

/-- The numbers whose conversion to `int` takes away the same multiple of `2 ^ 32`. -/
def intWindow (n : Nat) : Nat := (n + 2 ^ 31) / 2 ^ 32

/-- The difference of two sizes as `int`s is their difference. -/
theorem toInt_sub {a s : Nat} (h : intWindow a = intWindow s) : toInt a - toInt s = a - s := by
  unfold intWindow at h
  simp only [toInt, Int.bmod_def]
  omega

theorem toLongLong_sub {a s : Nat} (ha : a < 2 ^ 63) (hs : s < 2 ^ 63) :
    toLongLong (a - s) = a - s := by
  simp only [toLongLong, Int.bmod_def]
  omega

/-! ## The ledger of the application -/

/-- The blocks that the application owns, by pointer, and the bytes that each takes. -/
abbrev Ledger := List (Ptr × Nat)

/-- What the application writes down for a call that returned `r`. -/
def Ledger.after (c : Config) (ledger : Ledger) (e : Call) (r : Option Ptr) : Ledger :=
  match e, r with
  | .alloc _ n _, some p => (p, toSize (n + c.entrySize)) :: ledger
  | .calloc _ k n _, some p => (p, toSize (toSize (k * n) + c.entrySize)) :: ledger
  | .realloc _ (some ptr) n _, some p =>
    (p, toSize (n + c.entrySize)) :: ledger.filter fun b => b.1 ≠ ptr
  | .free (some ptr), _ => ledger.filter fun b => b.1 ≠ ptr
  | _, _ => ledger

def step (c : Config) (s : Limiter × Ledger) (e : Call) : Option (Limiter × Ledger) :=
  (call c s.1 e).map fun (r, w) => (w, s.2.after c e r)

def Call.limitType : Call → Option AllocationType
  | .alloc t _ _ => some t
  | .calloc t _ _ _ => some t
  | .realloc t _ _ _ => some t
  | _ => none

/-- The block of the entry at `a`, as the application knows it. -/
def owned (c : Config) (b : Ptr × Nat) : Ptr × Nat := (Limiter.getPtrFromEntry c b.1, b.2)

/-- **What holds of the limiter and the ledger.** -/
structure Accounts (c : Config) (w : Limiter) (ledger : Ledger) : Prop where
  /-- the total is the sum of the live blocks -/
  total : w.allocated = (ledger.map Prod.snd).sum
  /-- it is within the limit -/
  limit : w.allocated ≤ w.totalLimit
  limits : w.applicationLimit + c.systemMemoryLimit = w.totalLimit
  /-- the blocks are the platform's -/
  fits : w.allocated < 2 ^ 63
  /-- the entries are those of the ledger, each in the list once -/
  entries : ∃ bs, ledger = bs.map (owned c) ∧ Listed c w.entries bs

/-- The arguments of a call: a pointer is one that the application owns, a limit is a `size_t`. -/
def Passed (ledger : Ledger) : Call → Prop
  | .realloc _ (some ptr) _ _ => ptr ∈ ledger.map Prod.fst
  | .free (some ptr) => ptr ∈ ledger.map Prod.fst
  | .setLimit n => n < 2 ^ 64
  | _ => True

instance (ledger : Ledger) : ∀ e, Decidable (Passed ledger e)
  | .realloc _ (some ptr) _ _ => inferInstanceAs (Decidable (ptr ∈ _))
  | .free (some ptr) => inferInstanceAs (Decidable (ptr ∈ _))
  | .setLimit _ => inferInstanceAs (Decidable (_ < _))
  | .alloc .. | .calloc .. | .realloc _ none _ _ | .free none => .isTrue trivial

/-- What the platform has to spare for `n` bytes at `a`, beside the blocks `ledger`. -/
def Spare (c : Config) (ledger : Ledger) (a : Ptr) (n : Nat) : Prop :=
  Limiter.getPtrFromEntry c a ∉ ledger.map Prod.fst ∧ (ledger.map Prod.snd).sum + n < 2 ^ 63

instance (ledger : Ledger) (a : Ptr) (n : Nat) : Decidable (Spare c ledger a n) :=
  inferInstanceAs (Decidable (_ ∧ _))

/-- The platform's allocator: a block does not overlap those that are in use, and all of them are
smaller than half of the address space. -/
def Grants (c : Config) (ledger : Ledger) : Call → Prop
  | .alloc _ n (some a) => Spare c ledger a (toSize (n + c.entrySize))
  | .calloc _ k n (some a) => Spare c ledger a (toSize (toSize (k * n) + c.entrySize))
  | .realloc _ (some ptr) n (some a) =>
    Spare c (ledger.filter fun b => b.1 ≠ ptr) a (toSize (n + c.entrySize))
  | _ => True

instance (ledger : Ledger) : ∀ e, Decidable (Grants c ledger e)
  | .alloc _ _ (some _) => inferInstanceAs (Decidable (Spare ..))
  | .calloc _ _ _ (some _) => inferInstanceAs (Decidable (Spare ..))
  | .realloc _ (some _) _ (some _) => inferInstanceAs (Decidable (Spare ..))
  | .alloc _ _ none | .calloc _ _ _ none | .realloc _ none _ _ | .realloc _ (some _) _ none
  | .free _ | .setLimit _ => .isTrue trivial

/-- An entry is not the first of its list with a `prev` from before. -/
def Unstale (c : Config) (w : Limiter) (e : Cell Ptr Nat) : Prop :=
  c.debugExtraInfo → w.entries.head = some e.address → e.prev = none

/-- What the code does not check. -/
def Safe (c : Config) (w : Limiter) : Call → Prop
  | .alloc _ n (some _) => n + c.entrySize < 2 ^ 64
  | .calloc _ k n (some _) => toSize (k * n) + c.entrySize < 2 ^ 64
  | .realloc t (some ptr) n answer =>
    ∀ e ∈ w.entries.read (Limiter.getEntryFromPtr c ptr),
      w.willAllocationFit t (toSize (max (Limiter.realDiff c e n) 0)) = .ok →
        (answer.isSome → n + c.entrySize < 2 ^ 64) ∧ (c.debugExtraInfo → answer.isSome) ∧
          Unstale c w e
  | .free (some ptr) =>
    ∀ e ∈ w.entries.read (Limiter.getEntryFromPtr c ptr),
      intWindow w.allocated = intWindow e.value ∧ w.allocated - e.value < 2 ^ 31 ∧ Unstale c w e
  | _ => True

instance (w : Limiter) (e : Cell Ptr Nat) : Decidable (Unstale c w e) :=
  inferInstanceAs (Decidable (_ → _ → _))

instance (w : Limiter) : ∀ e, Decidable (Safe c w e)
  | .alloc _ _ (some _) => inferInstanceAs (Decidable (_ < _))
  | .calloc _ _ _ (some _) => inferInstanceAs (Decidable (_ < _))
  | .realloc _ (some _) _ _ => inferInstanceAs (Decidable (∀ _ ∈ _, _ → _))
  | .free (some _) => inferInstanceAs (Decidable (∀ _ ∈ _, _ ∧ _ ∧ _))
  | .alloc _ _ none | .calloc _ _ _ none | .realloc _ none _ _ | .free none
  | .setLimit _ => .isTrue trivial

/-! ## One call -/

variable {w : Limiter} {ledger : Ledger}

theorem owned_injective : Function.Injective (owned c) := by
  rintro ⟨a, v⟩ ⟨b, u⟩ h
  obtain ⟨h₁, h₂⟩ := Prod.mk.inj h
  simp only [Limiter.getPtrFromEntry, Nat.add_right_cancel_iff] at h₁
  exact Prod.ext h₁ h₂

theorem map_snd_owned (bs : List (Ptr × Nat)) :
    (bs.map (owned c)).map Prod.snd = bs.map Prod.snd := by
  rw [List.map_map]
  rfl

theorem mem_owned {a : Ptr} :
    Limiter.getPtrFromEntry c a ∈ (bs.map (owned c)).map Prod.fst ↔ a ∈ bs.map Prod.fst := by
  simp [owned, Limiter.getPtrFromEntry]

/-- The blocks beside one. -/
theorem filter_owned {a : Ptr} {v : Nat} {l r : List (Ptr × Nat)}
    (h : ((l ++ (a, v) :: r).map Prod.fst).Nodup) :
    ((l ++ (a, v) :: r).map (owned c)).filter (fun b => b.1 ≠ Limiter.getPtrFromEntry c a) =
      (l ++ r).map (owned c) := by
  rw [List.map_append, List.map_cons, List.nodup_append', List.nodup_cons] at h
  have hne : ∀ bs : List (Ptr × Nat), a ∉ bs.map Prod.fst →
      (bs.map (owned c)).filter (fun b => b.1 ≠ Limiter.getPtrFromEntry c a) = bs.map (owned c) := by
    intro bs hbs
    refine List.filter_eq_self.2 fun b hb => decide_eq_true fun heq => hbs ?_
    rw [← mem_owned (c := c), ← heq]
    exact List.mem_map_of_mem hb
  rw [List.map_append, List.map_cons, List.filter_append, List.filter_cons_of_neg (by simp [owned]),
    hne l fun hl => h.2.2 hl List.mem_cons_self, hne r h.2.1.1, List.map_append]

theorem willAllocationFit_eq_ok {t : AllocationType} {n : Nat} :
    w.willAllocationFit t n = .ok ↔ toSize (w.allocated + n) ≤ w.getCapacity t := by
  unfold Limiter.willAllocationFit
  split <;> simp <;> omega

theorem Accounts.getCapacity_le (h : Accounts c w ledger) (t : AllocationType) :
    w.getCapacity t ≤ w.totalLimit := by
  cases t with
  | application =>
    have := h.limits
    show w.applicationLimit ≤ w.totalLimit
    omega
  | system => exact Nat.le_refl _

/-- An allocation returns `NULL` and changes nothing, or returns a block that fits. -/
theorem alloc_cases {t : AllocationType} {n : Nat} {answer : Option Ptr} (h : Accounts c w ledger)
    (hgrants : ∀ a, answer = some a → Spare c ledger a (toSize (n + c.entrySize)))
    (hsafe : answer.isSome → n + c.entrySize < 2 ^ 64) :
    w.alloc c t n answer = some (none, w) ∨ ∃ p w', w.alloc c t n answer = some (some p, w') ∧
      Accounts c w' ((p, toSize (n + c.entrySize)) :: ledger) ∧
        w'.allocated ≤ w'.getCapacity t := by
  unfold Limiter.alloc
  simp only [ne_eq, ite_not]
  split
  · next hfit =>
    cases answer with
    | none => exact .inl rfl
    | some a =>
      obtain ⟨hfresh, hspare⟩ := hgrants a rfl
      obtain ⟨bs, rfl, hlisted⟩ := h.entries
      have hsize : toSize (n + c.entrySize) = n + c.entrySize := toSize_add (hsafe rfl)
      rw [mem_owned] at hfresh
      obtain ⟨m', hm', hlisted'⟩ := Listed.setEntry
        (m := ⟨w.entries.head, ⟨a, none, none, 0⟩ :: w.entries.cells⟩) hlisted rfl hfresh
        (fun _ _ => rfl)
      simp only
      rw [if_neg (by rw [hsize]; omega), hm', Option.map_some]
      have htotal := h.total
      rw [willAllocationFit_eq_ok] at hfit
      have hsum : toSize (w.allocated + toSize (n + c.entrySize)) =
          w.allocated + toSize (n + c.entrySize) := toSize_add (by omega)
      rw [hsum] at hfit ⊢
      refine .inr ⟨_, _, rfl, ⟨?_, ?_, h.limits, ?_, ?_⟩, hfit⟩
      · rw [List.map_cons, List.sum_cons, ← htotal, Nat.add_comm]
      · exact Nat.le_trans hfit (h.getCapacity_le t)
      · show w.allocated + _ < _
        omega
      · exact ⟨_, rfl, hlisted'⟩
  · exact .inl rfl

/-- A pointer that the application owns is the block of an entry. -/
theorem Accounts.read (h : Accounts c w ledger) {ptr : Ptr} (hown : ptr ∈ ledger.map Prod.fst) :
    ∃ a e l r, ptr = Limiter.getPtrFromEntry c a ∧ w.entries.read a = some e ∧ e.address = a ∧
      ledger = (l ++ (a, e.value) :: r).map (owned c) ∧
        Listed c w.entries (l ++ (a, e.value) :: r) := by
  obtain ⟨bs, rfl, hlisted⟩ := h.entries
  rw [List.map_map, List.mem_map] at hown
  obtain ⟨⟨a, v⟩, hb, rfl⟩ := hown
  obtain ⟨e, he⟩ := hlisted.read (List.mem_map_of_mem (f := Prod.fst) hb)
  obtain ⟨l, r, rfl⟩ := hlisted.split he
  exact ⟨a, e, l, r, rfl, he, (mem_of_read he).2, rfl, hlisted⟩

theorem getEntryFromPtr_getPtrFromEntry (c : Config) (a : Ptr) :
    Limiter.getEntryFromPtr c (Limiter.getPtrFromEntry c a) = a := Nat.add_sub_cancel ..

theorem sum_owned (l r : List (Ptr × Nat)) (b : Ptr × Nat) :
    ((((l ++ b :: r).map (owned c)).map Prod.snd).sum) =
      (((l ++ r).map (owned c)).map Prod.snd).sum + b.2 := by
  rw [map_snd_owned, map_snd_owned, List.map_append, List.map_append, List.map_cons,
    List.sum_append, List.sum_append, List.sum_cons]
  omega

/-- The total after a reallocation, where the other blocks take `rest` bytes. -/
theorem realloc_total {rest old new capacity : Nat} (hold : rest + old < 2 ^ 63)
    (hnew : rest + new < 2 ^ 63)
    (hfit : toSize ((rest + old : Nat) + toSize (max ((new : Int) - old) 0)) ≤ capacity) :
    toSize ((rest + old : Nat) + ((new : Int) - old)) = rest + new ∧ rest + new ≤ capacity := by
  unfold toSize at *
  omega

/-- A reallocation returns `NULL` and changes nothing, or returns a block that fits in place of the
one it got. -/
theorem realloc_cases {t : AllocationType} {ptr : Ptr} {n : Nat} {answer : Option Ptr}
    (h : Accounts c w ledger) (hown : Passed ledger (.realloc t (some ptr) n answer))
    (hgrants : Grants c ledger (.realloc t (some ptr) n answer))
    (hsafe : Safe c w (.realloc t (some ptr) n answer)) :
    w.realloc c t (some ptr) n answer = some (none, w) ∨
      ∃ p w', w.realloc c t (some ptr) n answer = some (some p, w') ∧
        Accounts c w' ((p, toSize (n + c.entrySize)) :: ledger.filter fun b => b.1 ≠ ptr) ∧
          w'.allocated ≤ w'.getCapacity t := by
  obtain ⟨a, e, l, r, rfl, he, rfl, rfl, hlisted⟩ := h.read hown
  simp only [Safe, getEntryFromPtr_getPtrFromEntry, he, Option.mem_some_iff, forall_eq'] at hsafe
  unfold Limiter.realloc
  simp only [getEntryFromPtr_getPtrFromEntry, he, Option.bind_some, ne_eq, ite_not]
  split
  · next hfit =>
    obtain ⟨hwrap, hanswer, hstale⟩ := hsafe hfit
    obtain ⟨m, hm, hrest, e', he', hnext⟩ := hlisted.unlinkEntry he fun hd hh => hstale hd hh
    rw [hm, Option.bind_some]
    cases answer with
    | none =>
      have hdebug : ¬c.debugExtraInfo := fun hd => by simpa using hanswer hd
      unfold Limiter.unlinkEntry at hm
      rw [if_neg hdebug, Option.some.injEq] at hm
      exact .inl (by rw [← hm])
    | some q =>
      have hwrap := hwrap rfl
      simp only [Grants, filter_owned hlisted.distinct] at hgrants
      obtain ⟨hfresh, hspare⟩ := hgrants
      rw [mem_owned] at hfresh
      have htotal := h.total
      have hfits := h.fits
      rw [sum_owned] at htotal
      generalize hsize : toSize (n + c.entrySize) = size at *
      have hentry : ¬size < c.entrySize := by
        rw [← hsize, toSize_add hwrap]
        omega
      have hdiff : Limiter.realDiff c e n = size - e.value := by
        rw [Limiter.realDiff, hsize]
        exact toLongLong_sub (by omega) (by omega)
      rw [hdiff, willAllocationFit_eq_ok] at hfit
      obtain ⟨hnew, hcapacity⟩ := realloc_total (htotal ▸ hfits) hspare (htotal ▸ hfit)
      obtain ⟨m', hm', hlisted'⟩ := Listed.setEntry (a := q)
        (m := ⟨m.head, { e' with address := q } :: (m.release e.address).cells⟩) hrest rfl hfresh
        hnext
      simp only
      rw [if_neg hentry, Infra.Memory.move, he', Option.map_some, Option.bind_some, hm',
        Option.map_some]
      rw [hdiff, htotal, hnew]
      refine .inr ⟨_, _, rfl, ⟨?_, ?_, h.limits, hspare, ?_⟩, hcapacity⟩
      · rw [filter_owned hlisted.distinct, List.map_cons, List.sum_cons, Nat.add_comm]
      · exact Nat.le_trans hcapacity (h.getCapacity_le t)
      · rw [filter_owned hlisted.distinct]
        exact ⟨_, rfl, hlisted'⟩
  · exact .inl rfl

/-- A block is freed. -/
theorem free_accounts {ptr : Ptr} (h : Accounts c w ledger) (hown : Passed ledger (.free (some ptr)))
    (hsafe : Safe c w (.free (some ptr))) :
    ∃ w', w.free c (some ptr) = some w' ∧
      Accounts c w' (ledger.filter fun b => b.1 ≠ ptr) := by
  obtain ⟨a, e, l, r, rfl, he, rfl, rfl, hlisted⟩ := h.read hown
  simp only [Safe, getEntryFromPtr_getPtrFromEntry, he, Option.mem_some_iff, forall_eq'] at hsafe
  obtain ⟨hwindow, hremaining, hstale⟩ := hsafe
  obtain ⟨m, hm, hrest, -⟩ := hlisted.unlinkEntry he fun hd hh => hstale hd hh
  have htotal := h.total
  rw [sum_owned] at htotal
  have hasserts : w.freeAsserts c e = true := by
    rw [Limiter.freeAsserts, Bool.and_eq_true, decide_eq_true_eq, Bool.or_eq_true]
    refine ⟨by omega, ?_⟩
    cases hd : c.debugExtraInfo with
    | false => exact .inl rfl
    | true =>
      obtain ⟨p, hp⟩ := hlisted.links hd
      have hlength : w.entries.cells.length = (l ++ (e.address, e.value) :: r).length := by
        rw [← congrArg List.length hlisted.cells, List.length_map]
      rw [hlength, congrArg Infra.Memory.head hp, decide_eq_true_eq]
      exact .inr (find_linked (k := []) (congrArg Infra.Memory.cells hp) hlisted.distinct
        (by rw [List.length_append, List.length_cons]; omega))
  have hdifference := toInt_sub hwindow
  have hint : isInt (w.allocated - e.value) = true := by
    simp only [isInt, Bool.and_eq_true, decide_eq_true_eq]
    omega
  have hnew : toSize (max ((w.allocated : Int) - e.value) 0) =
      (((l ++ r).map (owned c)).map Prod.snd).sum := by
    have := h.fits
    unfold toSize
    omega
  unfold Limiter.free
  simp only [getEntryFromPtr_getPtrFromEntry, he, Option.bind_some, hasserts, hm, hdifference, hint,
    hnew, Bool.not_true, Bool.false_eq_true, if_false, if_true]
  rw [filter_owned hlisted.distinct]
  have hlimit := h.limit
  have hfits := h.fits
  refine ⟨_, rfl, ⟨rfl, ?_, h.limits, ?_, _, rfl, hrest⟩⟩
  · show (((l ++ r).map (owned c)).map Prod.snd).sum ≤ w.totalLimit
    omega
  · show (((l ++ r).map (owned c)).map Prod.snd).sum < _
    omega

/-- A new limit leaves room for the system beside what is allocated. -/
theorem setLimit_accounts {n : Nat} (h : Accounts c w ledger) (hn : n < 2 ^ 64) :
    Accounts c (w.setLimit c n).2 ledger := by
  have hlimits := c.limits_lt
  have hfits := h.fits
  unfold Limiter.setLimit
  rw [toSize_add (by omega)]
  split
  · exact h
  · next hle =>
    refine ⟨h.total, ?_, ?_, hfits, h.entries⟩
    · show w.allocated ≤ n
      omega
    · show toSize ((n : Int) - c.systemMemoryLimit) + c.systemMemoryLimit = n
      unfold toSize
      omega

/-! ## Runs -/

/-- **What a call does**: one that returns `NULL` changes nothing, and a block that it returns is
within the limit of its kind. -/
structure Answers (w : Limiter) (e : Call) (r : Option Ptr) (w' : Limiter) : Prop where
  null : e.limitType.isSome → r = none → w' = w
  capacity : ∀ t, e.limitType = some t → r.isSome → w'.allocated ≤ w'.getCapacity t

/-- The application and the platform do their part. -/
def Permitted (c : Config) (s : Limiter × Ledger) (e : Call) : Prop :=
  Passed s.2 e ∧ Grants c s.2 e

instance (s : Limiter × Ledger) (e : Call) : Decidable (Permitted c s e) :=
  inferInstanceAs (Decidable (_ ∧ _))

theorem Ledger.after_null {e : Call} (he : e.limitType.isSome) : ledger.after c e none = ledger := by
  cases e with
  | realloc _ ptr => cases ptr <;> rfl
  | free => cases he
  | _ => rfl

/-- A call of a kind that returned `NULL`, or a block within the limit of the kind. -/
theorem answers_of_cases {e : Call} {t : AllocationType} (ht : e.limitType = some t)
    (h : Accounts c w ledger)
    (hcases : call c w e = some (none, w) ∨ ∃ p w', call c w e = some (some p, w') ∧
      Accounts c w' (ledger.after c e (some p)) ∧ w'.allocated ≤ w'.getCapacity t) :
    ∃ r w', call c w e = some (r, w') ∧ Accounts c w' (ledger.after c e r) ∧ Answers w e r w' := by
  rcases hcases with hnull | ⟨p, w', hblock, haccounts, hcapacity⟩
  · refine ⟨none, w, hnull, ?_, fun _ _ => rfl, fun _ _ hr => by cases hr⟩
    rw [Ledger.after_null (by rw [ht]; rfl)]
    exact h
  · refine ⟨some p, w', hblock, haccounts, fun _ hr => (by cases hr), fun t' ht' _ => ?_⟩
    obtain rfl := Option.some.inj (ht.symm.trans ht')
    exact hcapacity

/-- **One call that meets the condition.** -/
theorem call_accounts {e : Call} (h : Accounts c w ledger) (hpassed : Passed ledger e)
    (hgrants : Grants c ledger e) (hsafe : Safe c w e) :
    ∃ r w', call c w e = some (r, w') ∧ Accounts c w' (ledger.after c e r) ∧ Answers w e r w' := by
  cases e with
  | alloc t n answer =>
    refine answers_of_cases rfl h (alloc_cases h ?_ ?_)
    · rintro a rfl
      exact hgrants
    · intro hsome
      obtain ⟨a, rfl⟩ := Option.isSome_iff_exists.1 hsome
      exact hsafe
  | calloc t k n answer =>
    refine answers_of_cases rfl h (alloc_cases h ?_ ?_)
    · rintro a rfl
      exact hgrants
    · intro hsome
      obtain ⟨a, rfl⟩ := Option.isSome_iff_exists.1 hsome
      exact hsafe
  | realloc t ptr n answer =>
    cases ptr with
    | none => exact answers_of_cases rfl h (.inl rfl)
    | some ptr => exact answers_of_cases rfl h (realloc_cases h hpassed hgrants hsafe)
  | free ptr =>
    cases ptr with
    | none => exact ⟨none, w, rfl, h, by simp [Call.limitType], by simp⟩
    | some ptr =>
      obtain ⟨w', hfree, haccounts⟩ := free_accounts h hpassed hsafe
      refine ⟨none, w', ?_, haccounts, by simp [Call.limitType], by simp⟩
      rw [call, hfree]
      rfl
  | setLimit n =>
    exact ⟨none, _, rfl, setLimit_accounts h hpassed, by simp [Call.limitType], by simp⟩

/-- Nothing is allocated before the first call. -/
theorem accounts_init (c : Config) : Accounts c (Limiter.init c) [] :=
  ⟨rfl, Nat.zero_le _, rfl, by simp [Limiter.init], [], rfl, rfl, List.nodup_nil, fun _ => ⟨none, rfl⟩⟩

theorem step_accounts {s s' : Limiter × Ledger} {e : Call} (h : Accounts c s.1 s.2)
    (hpermitted : Permitted c s e) (hsafe : Safe c s.1 e) (hstep : step c s e = some s') :
    Accounts c s'.1 s'.2 := by
  obtain ⟨r, w', hcall, haccounts, -⟩ := call_accounts h hpermitted.1 hpermitted.2 hsafe
  rw [step, hcall, Option.map_some, Option.some.injEq] at hstep
  rw [← hstep]
  exact haccounts

/-- **The limiter accounts for every block.** After every run of calls that meet the condition the
total is the sum of the live blocks and within the limit, and the next such call is taken and
answers as it should. -/
theorem limiter_accounts (c : Config) {calls : List Call} {s : Limiter × Ledger}
    (hrun : Infra.run (step c) (Limiter.init c, []) calls = some s)
    (hpermitted : Infra.AllSteps (step c) (Permitted c) (Limiter.init c, []) calls)
    (hsafe : Infra.AllSteps (step c) (fun s e => Safe c s.1 e) (Limiter.init c, []) calls) :
    Accounts c s.1 s.2 ∧ ∀ e, Permitted c s e → Safe c s.1 e →
      ∃ r w, call c s.1 e = some (r, w) ∧ Answers s.1 e r w := by
  have haccounts : Accounts c s.1 s.2 :=
    Infra.run_invariant_of (P := fun s : Limiter × Ledger => Accounts c s.1 s.2)
      (fun _ _ _ h hC hstep => step_accounts h hC.1 hC.2 hstep) (accounts_init c)
      (hpermitted.and hsafe) hrun
  refine ⟨haccounts, fun e hp hs => ?_⟩
  obtain ⟨r, w, hcall, -, hanswers⟩ := call_accounts haccounts hp.1 hp.2 hs
  exact ⟨r, w, hcall, hanswers⟩

/-- The limits of a development build. -/
def build (debugExtraInfo : Bool) : Config where
  applicationMemoryLimit := 524288
  systemMemoryLimit := 2024
  entrySize := if debugExtraInfo then 184 else 8
  debugExtraInfo := debugExtraInfo
  limits_lt := by decide

/-- A block that grows, and one that is freed. -/
def growing : List Call :=
  [.alloc .application 100 (some 1024), .alloc .system 50 (some 2048),
    .realloc .application (some 1032) 300 (some 4096), .free (some 2056)]

/-- What `growing` leaves. -/
def grown : Limiter × Ledger :=
  (⟨524288, 526312, 308, ⟨none, [⟨4096, none, none, 308⟩]⟩⟩, [(4104, 308)])

theorem limiter_accounts_grown : Accounts (build false) grown.1 grown.2 ∧
    ∀ e, Permitted (build false) grown e → Safe (build false) grown.1 e →
      ∃ r w, call (build false) grown.1 e = some (r, w) ∧ Answers grown.1 e r w := by
  have hrun : Infra.run (step (build false)) (Limiter.init (build false), []) growing =
      some grown := by decide +kernel
  exact limiter_accounts (build false) hrun (by decide +kernel) (by decide +kernel)

/-- **A limit of 4 GiB.** A block of 2 GiB is still there when a small one is freed, and the total
is 0. -/
theorem limiter_accounts_fails : ∃ s, Infra.run (step (build false)) (Limiter.init (build false), [])
      [.setLimit 0xFFFFFFFF, .alloc .application 0x80000000 (some 0x10000),
        .alloc .application 100 (some 1024), .free (some 1032)] = some s ∧
    s.1.allocated = 0 ∧ s.2 = [(0x10008, 0x80000008)] :=
  ⟨(⟨4294965271, 4294967295, 0, ⟨none, [⟨0x10000, none, none, 0x80000008⟩]⟩⟩,
    [(0x10008, 0x80000008)]), by decide +kernel, rfl, rfl⟩

/-- A debug build: the platform refuses to grow a block, which then is no longer in the list, so
that an assertion fails when it is freed. -/
theorem limiter_accounts_unlinks : ∃ s, Infra.run (step (build true)) (Limiter.init (build true), [])
      [.alloc .application 100 (some 1024), .realloc .application (some 1208) 300 none] = some s ∧
    s.2 = [(1208, 284)] ∧ s.1.entries.head = none ∧
    call (build true) s.1 (.free (some 1208)) = none :=
  ⟨_, rfl, rfl, rfl, rfl⟩

end IotDeviceSdk.MemoryLimiter
