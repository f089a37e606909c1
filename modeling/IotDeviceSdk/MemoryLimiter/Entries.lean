import Mathlib.Data.List.Induction
import IotDeviceSdk.MemoryLimiter.Accounts

/-!
# The list of entries

With `IOTC_DEBUG_EXTRA_INFO` the entries of the live blocks are in a doubly linked list, newest
first, and `iotc_memory_limiter_gc` frees what is in it from the last entry to the first. Three
things break it:

* a reallocation takes the entry out of the list before it asks the platform, and does not put it
  back if there is no memory;
* an entry that was not the first is put in front with the `prev` that it had;
* the garbage collection of an empty list returns without unlocking the critical section.
-/

namespace IotDeviceSdk.MemoryLimiter

open Infra

variable {c : Config} {m m' : Infra.Memory Ptr Nat} {bs : List (Ptr × Nat)} {w w' : Limiter}
  {ledger : Ledger}

/-- The list visits the entries of `bs` in order, and nothing else is in memory: the `next` of each
entry is the one behind it, the `prev` of each is the one before, and there is nothing before the
first. -/
structure Chained (m : Infra.Memory Ptr Nat) (bs : List (Ptr × Nat)) : Prop where
  distinct : (bs.map Prod.fst).Nodup
  links : m = ⟨firstAddress bs none, linked none bs none⟩

/-- A chain has the entries that are listed. -/
theorem Chained.unique {bs' : List (Ptr × Nat)} (h : Chained m bs) (h' : Listed c m bs') :
    bs' = bs := by
  rw [← h'.cells, h.links, map_linked]

theorem Chained.read {a : Ptr} {v : Nat} {l r : List (Ptr × Nat)} (h : Chained m (l ++ (a, v) :: r)) :
    m.read a = some ⟨a, firstAddress r none, lastAddress none l, v⟩ :=
  read_linked (congrArg Infra.Memory.cells h.links) h.distinct

/-- A new entry is put in front of a chain. -/
theorem Chained.setEntry {a : Ptr} {v size : Nat} {n : Option Ptr} {cells : List (Cell Ptr Nat)}
    (hset : Limiter.setEntry c m a size = some m') (hd : c.debugExtraInfo)
    (h : Chained ⟨m.head, cells⟩ bs) (hcells : m.cells = ⟨a, n, none, v⟩ :: cells)
    (ha : a ∉ bs.map Prod.fst) (hn : bs = [] → n = none) : Chained m' ((a, size) :: bs) := by
  have hdistinct : (((a, size) :: bs).map Prod.fst).Nodup := by
    rw [List.map_cons, List.nodup_cons]
    exact ⟨ha, h.distinct⟩
  obtain ⟨hhead, hlinked⟩ := Infra.Memory.mk.inj h.links
  unfold Limiter.setEntry at hset
  rw [if_pos hd, pushFront_linked hhead (hcells.trans (by rw [hlinked])) ha h.distinct hn,
    Option.bind_some] at hset
  have hwrite := write_cons (m := ⟨some a, linked none ((a, v) :: bs) none⟩)
    (fun e => { e with value := size }) rfl (address_ne_of_notMem ha)
  obtain rfl := Option.some.inj (hwrite.symm.trans hset)
  exact ⟨hdistinct, rfl⟩

/-- An entry leaves a chain. -/
theorem Chained.unlinkEntry {a : Ptr} {v : Nat} {l r : List (Ptr × Nat)} {e : Cell Ptr Nat}
    (hd : c.debugExtraInfo) (h : Chained m (l ++ (a, v) :: r)) (hread : m.read a = some e)
    (hunlink : Limiter.unlinkEntry c m e = some m') :
    Chained (m'.release a) (l ++ r) ∧ m'.read a = some e := by
  have hdistinct := h.distinct
  rw [List.map_append, List.map_cons, List.nodup_append', List.nodup_cons] at hdistinct
  obtain ⟨hl, ⟨har, hr⟩, hdisjoint⟩ := hdistinct
  have hal : a ∉ l.map Prod.fst := fun h => hdisjoint h List.mem_cons_self
  have hrest : ((l ++ r).map Prod.fst).Nodup := by
    rw [List.map_append, List.nodup_append']
    exact ⟨hl, hr, fun x hx hx' => hdisjoint hx (List.mem_cons_of_mem _ hx')⟩
  obtain rfl := Option.some.inj (h.read.symm.trans hread)
  let d : Cell Ptr Nat := ⟨a, firstAddress r none, lastAddress none l, v⟩
  unfold Limiter.unlinkEntry at hunlink
  rw [if_pos hd, h.links, unlink_linked rfl rfl h.distinct fun _ => rfl] at hunlink
  obtain rfl := Option.some.inj hunlink
  refine ⟨?_, read_append_cons (c := d) rfl (address_ne_of_notMem hal)⟩
  have hrelease := release_append_cons (c := d)
    (m := ⟨firstAddress (l ++ r) none, _⟩) rfl
    (address_ne_of_notMem (p := none) (n := firstAddress r none) hal)
    (address_ne_of_notMem (p := lastAddress none l) (n := none) har)
  rw [← linked_append] at hrelease
  exact ⟨hrest, hrelease⟩

/-! ## Calls -/

/-- The list holds the live blocks. -/
def ListKept (c : Config) (w : Limiter) (ledger : Ledger) : Prop :=
  ∃ bs, ledger = bs.map (owned c) ∧ Chained w.entries bs

/-- The sizes are represented. A block that is reallocated is the first of the list, and the
platform has a block for it; a block that is freed and the total keep their difference as `int`s. -/
def Spares (c : Config) (w : Limiter) : Call → Prop
  | .alloc _ n (some _) => n + c.entrySize < 2 ^ 64
  | .calloc _ k n (some _) => toSize (k * n) + c.entrySize < 2 ^ 64
  | .realloc t (some ptr) n answer =>
    ∀ e ∈ w.entries.read (Limiter.getEntryFromPtr c ptr),
      w.willAllocationFit t (toSize (max (Limiter.realDiff c e n) 0)) = .ok →
        answer.isSome ∧ n + c.entrySize < 2 ^ 64 ∧ e.prev = none
  | .free (some ptr) =>
    ∀ e ∈ w.entries.read (Limiter.getEntryFromPtr c ptr),
      intWindow w.allocated = intWindow e.value ∧ w.allocated - e.value < 2 ^ 31
  | _ => True

instance (w : Limiter) : ∀ e, Decidable (Spares c w e)
  | .alloc _ _ (some _) => inferInstanceAs (Decidable (_ < _))
  | .calloc _ _ _ (some _) => inferInstanceAs (Decidable (_ < _))
  | .realloc _ (some _) _ _ => inferInstanceAs (Decidable (∀ _ ∈ _, _ → _))
  | .free (some _) => inferInstanceAs (Decidable (∀ _ ∈ _, _ ∧ _))
  | .alloc _ _ none | .calloc _ _ _ none | .realloc _ none _ _ | .free none
  | .setLimit _ => .isTrue trivial

/-- In a chain no entry has a `prev` from before. -/
theorem Chained.unstale (h : Chained w.entries bs) {a : Ptr} {e : Cell Ptr Nat}
    (hread : w.entries.read a = some e) : Unstale c w e := by
  intro _ hhead
  obtain ⟨-, haddress⟩ := mem_of_read hread
  cases bs with
  | nil =>
    rw [h.links] at hhead
    cases hhead
  | cons b bs =>
    rw [h.links, firstAddress_cons, Option.some.injEq] at hhead
    have hfirst := Chained.read (l := []) h
    rw [hhead, haddress, hread] at hfirst
    rw [Option.some.inj hfirst, lastAddress_nil]

theorem Spares.safe {e : Call} (hkept : ListKept c w ledger) (h : Spares c w e) : Safe c w e := by
  obtain ⟨bs, -, hchained⟩ := hkept
  cases e with
  | alloc t n answer => cases answer <;> exact h
  | calloc t k n answer => cases answer <;> exact h
  | realloc t ptr n answer =>
    cases ptr with
    | none => trivial
    | some ptr =>
      intro e he hfit
      obtain ⟨hanswer, hsize, -⟩ := h e he hfit
      exact ⟨fun _ => hsize, fun _ => hanswer, hchained.unstale he⟩
  | free ptr =>
    cases ptr with
    | none => trivial
    | some ptr =>
      intro e he
      obtain ⟨hwindow, hlt⟩ := h e he
      exact ⟨hwindow, hlt, hchained.unstale he⟩
  | setLimit n => trivial

/-- A pointer of the application is the block of an entry of the chain. -/
theorem ListKept.read (haccounts : Accounts c w ledger) (hkept : ListKept c w ledger) {ptr : Ptr}
    (hown : ptr ∈ ledger.map Prod.fst) :
    ∃ a e l r, ptr = Limiter.getPtrFromEntry c a ∧ w.entries.read a = some e ∧ e.address = a ∧
      ledger = (l ++ (a, e.value) :: r).map (owned c) ∧
        Chained w.entries (l ++ (a, e.value) :: r) := by
  obtain ⟨a, e, l, r, rfl, he, ha, hledger, hlisted⟩ := haccounts.read hown
  obtain ⟨bs, -, hchained⟩ := hkept
  rw [← hchained.unique hlisted] at hchained
  exact ⟨a, e, l, r, rfl, he, ha, hledger, hchained⟩

theorem alloc_kept {t : AllocationType} {n : Nat} {answer : Option Ptr} {p : Ptr}
    (hd : c.debugExtraInfo) (hkept : ListKept c w ledger)
    (hgrants : ∀ a, answer = some a → Spare c ledger a (toSize (n + c.entrySize)))
    (h : w.alloc c t n answer = some (some p, w')) :
    ListKept c w' ((p, toSize (n + c.entrySize)) :: ledger) := by
  obtain ⟨a, rfl, rfl, hset⟩ := Limiter.alloc_eq_some h
  obtain ⟨bs, rfl, hchained⟩ := hkept
  have hfresh := (hgrants a rfl).1
  rw [mem_owned] at hfresh
  exact ⟨_, rfl, Chained.setEntry hset hd hchained rfl hfresh fun _ => rfl⟩

theorem realloc_kept {t : AllocationType} {ptr : Ptr} {n : Nat} {answer : Option Ptr} {p : Ptr}
    (hd : c.debugExtraInfo) (haccounts : Accounts c w ledger) (hkept : ListKept c w ledger)
    (hown : Passed ledger (.realloc t (some ptr) n answer))
    (hgrants : Grants c ledger (.realloc t (some ptr) n answer))
    (hspares : Spares c w (.realloc t (some ptr) n answer))
    (h : w.realloc c t (some ptr) n answer = some (some p, w')) :
    ListKept c w' ((p, toSize (n + c.entrySize)) :: ledger.filter fun b => b.1 ≠ ptr) := by
  obtain ⟨e, m, m', b, he, hfit, hunlink, rfl, rfl, hmove, hset⟩ := Limiter.realloc_eq_some h
  obtain ⟨a, e', l, r, rfl, he', rfl, rfl, hchained⟩ := hkept.read haccounts hown
  rw [getEntryFromPtr_getPtrFromEntry] at he
  obtain rfl := Option.some.inj (he.symm.trans he')
  have hfirst : e.prev = none :=
    (hspares e (by rw [getEntryFromPtr_getPtrFromEntry]; exact he) hfit).2.2
  obtain ⟨hrest, hread⟩ := Chained.unlinkEntry hd hchained he hunlink
  rw [Infra.Memory.move, hread, Option.map_some] at hmove
  obtain rfl := Option.some.inj hmove
  simp only [Grants, filter_owned hchained.distinct] at hgrants ⊢
  have hfresh := hgrants.1
  rw [mem_owned] at hfresh
  have hlinks := Option.some.inj (hchained.read.symm.trans he)
  refine ⟨(b, _) :: (l ++ r), rfl, Chained.setEntry (n := e.next) (v := e.value) hset hd hrest ?_ hfresh
    fun hnil => ?_⟩
  · rw [← hfirst]
    rfl
  · obtain ⟨-, rfl⟩ := List.append_eq_nil_iff.1 hnil
    rw [← hlinks]
    rfl

theorem free_kept {ptr : Ptr} (hd : c.debugExtraInfo) (haccounts : Accounts c w ledger)
    (hkept : ListKept c w ledger) (hown : ptr ∈ ledger.map Prod.fst)
    (h : w.free c (some ptr) = some w') : ListKept c w' (ledger.filter fun b => b.1 ≠ ptr) := by
  obtain ⟨e, m, he, hunlink, hentries⟩ := Limiter.free_eq_some h
  obtain ⟨a, e', l, r, rfl, he', rfl, rfl, hchained⟩ := hkept.read haccounts hown
  rw [getEntryFromPtr_getPtrFromEntry] at he
  obtain rfl := Option.some.inj (he.symm.trans he')
  rw [filter_owned hchained.distinct]
  refine ⟨l ++ r, rfl, ?_⟩
  rw [hentries]
  exact (Chained.unlinkEntry hd hchained he hunlink).1

/-- **A call that meets the condition is taken, leaves a list of the live blocks, and changes nothing
if it returns `NULL`.** -/
theorem call_kept {e : Call} (hd : c.debugExtraInfo) (haccounts : Accounts c w ledger)
    (hkept : ListKept c w ledger) (hpassed : Passed ledger e) (hgrants : Grants c ledger e)
    (hspares : Spares c w e) :
    ∃ r w', call c w e = some (r, w') ∧ Accounts c w' (ledger.after c e r) ∧
      ListKept c w' (ledger.after c e r) ∧ (e.limitType.isSome → r = none → w' = w) := by
  obtain ⟨r, w', hcall, haccounts', hanswers⟩ :=
    call_accounts haccounts hpassed hgrants (hspares.safe hkept)
  refine ⟨r, w', hcall, haccounts', ?_, hanswers.null⟩
  by_cases hnull : e.limitType.isSome ∧ r = none
  · obtain ⟨htype, rfl⟩ := hnull
    rw [Ledger.after_null htype, hanswers.null htype rfl]
    exact hkept
  · cases e with
    | alloc t n answer =>
      obtain ⟨p, rfl⟩ := Option.ne_none_iff_exists'.1 fun hr => hnull ⟨rfl, hr⟩
      refine alloc_kept hd hkept ?_ hcall
      rintro a rfl
      exact hgrants
    | calloc t k n answer =>
      obtain ⟨p, rfl⟩ := Option.ne_none_iff_exists'.1 fun hr => hnull ⟨rfl, hr⟩
      refine alloc_kept hd hkept ?_ hcall
      rintro a rfl
      exact hgrants
    | realloc t ptr n answer =>
      obtain ⟨p, rfl⟩ := Option.ne_none_iff_exists'.1 fun hr => hnull ⟨rfl, hr⟩
      cases ptr with
      | none => cases hcall
      | some ptr => exact realloc_kept hd haccounts hkept hpassed hgrants hspares hcall
    | free ptr =>
      obtain ⟨w₁, hfree, hpair⟩ := Option.map_eq_some_iff.1 hcall
      obtain ⟨-, rfl⟩ := Prod.mk.inj hpair
      cases ptr with
      | none =>
        obtain rfl := Option.some.inj hfree
        exact hkept
      | some ptr => exact free_kept hd haccounts hkept hpassed hfree
    | setLimit n =>
      obtain ⟨-, rfl⟩ := Prod.mk.inj (Option.some.inj hcall)
      have hentries : (w.setLimit c n).2.entries = w.entries := by
        unfold Limiter.setLimit
        split <;> rfl
      obtain ⟨bs, hledger, hchained⟩ := hkept
      exact ⟨bs, hledger, hentries ▸ hchained⟩

/-! ## Garbage collection -/

/-- The blocks can be freed from the last to the first: each keeps its difference as an `int` with
the total of what is in front of it and itself. -/
def Collectable (ledger : Ledger) : Prop :=
  ∀ l b, l ++ [b] <+: ledger →
    intWindow ((l.map Prod.snd).sum + b.2) = intWindow b.2 ∧ (l.map Prod.snd).sum < 2 ^ 31

/-- The walk ends at the last entry. -/
theorem lastFrom_chained {l : List (Ptr × Nat)} {a : Ptr} {v : Nat} :
    ∀ {k : List (Ptr × Nat)} {fuel : Nat}, Chained m (k ++ (l ++ [(a, v)])) → l.length < fuel →
      ∃ tmp, firstAddress (l ++ [(a, v)]) none = some tmp ∧ Limiter.lastFrom m fuel tmp = some a := by
  induction l with
  | nil =>
    intro k fuel h hfuel
    obtain ⟨fuel, rfl⟩ := Nat.exists_eq_add_of_lt hfuel
    refine ⟨a, rfl, ?_⟩
    simp [Limiter.lastFrom, h.read (l := k)]
  | cons b l ih =>
    intro k fuel h hfuel
    obtain ⟨fuel, rfl⟩ := Nat.exists_eq_add_of_le' (Nat.succ_le_of_lt (Nat.zero_lt_of_lt hfuel))
    have hread := h.read (l := k) (a := b.1) (v := b.2)
    have hnext : Chained m ((k ++ [b]) ++ (l ++ [(a, v)])) := by
      rwa [List.append_assoc, List.singleton_append]
    obtain ⟨tmp, htmp, hlast⟩ := ih hnext (Nat.lt_of_succ_lt_succ hfuel)
    refine ⟨b.1, rfl, ?_⟩
    rw [Limiter.lastFrom, hread, Option.bind_some]
    have hsome : firstAddress (List.append l [(a, v)]) none = some tmp := htmp
    simp only [hsome]
    exact hlast

/-- **The list is freed from its end.** -/
theorem freeUpwards_chained (hd : c.debugExtraInfo) (bs : List (Ptr × Nat)) :
    ∀ {w : Limiter} {fuel : Nat}, Accounts c w (bs.map (owned c)) → Chained w.entries bs →
      Collectable (bs.map (owned c)) → bs.length ≤ fuel →
      ∃ w', Limiter.freeUpwards c fuel w (lastAddress none bs) = some w' ∧ w'.allocated = 0 ∧
        w'.entries = ⟨none, []⟩ := by
  induction bs using List.reverseRecOn with
  | nil =>
    intro w fuel haccounts hchained _ _
    refine ⟨w, ?_, haccounts.total, hchained.links⟩
    cases fuel <;> rfl
  | append_singleton l b ih =>
    intro w fuel haccounts hchained hcollectable hfuel
    rw [List.length_append, List.length_singleton] at hfuel
    obtain ⟨fuel, rfl⟩ := Nat.exists_eq_add_of_le' (Nat.le_trans (Nat.le_add_left 1 _) hfuel)
    have hread := Chained.read (l := l) (a := b.1) (v := b.2) (r := []) hchained
    have hledger : ((l ++ [b]).map (owned c)) = l.map (owned c) ++ [owned c b] := by simp
    have htotal := haccounts.total
    rw [sum_owned, List.append_nil] at htotal
    have hdifference := hcollectable (l.map (owned c)) (owned c b) (hledger ▸ List.prefix_refl _)
    have hsafe : Safe c w (.free (some (Limiter.getPtrFromEntry c b.1))) := by
      intro e he
      rw [getEntryFromPtr_getPtrFromEntry] at he
      have hvalue : e.value = b.2 := by
        rw [← Option.some.inj (hread.symm.trans he)]
      rw [hvalue, htotal, Nat.add_sub_cancel]
      exact ⟨hdifference.1, hdifference.2, hchained.unstale he⟩
    have hown : Limiter.getPtrFromEntry c b.1 ∈ ((l ++ [b]).map (owned c)).map Prod.fst := by
      simp [owned]
    obtain ⟨w₁, hfree, haccounts₁⟩ := free_accounts haccounts hown hsafe
    obtain ⟨bs, hbs, hchained₁⟩ := free_kept hd haccounts ⟨_, rfl, hchained⟩ hown hfree
    have hfilter := filter_owned (c := c) (l := l) (a := b.1) (v := b.2) (r := []) hchained.distinct
    rw [List.append_nil] at hfilter
    rw [hfilter] at haccounts₁ hbs
    obtain rfl := List.map_injective_iff.2 owned_injective hbs
    obtain ⟨w', hrest, hzero, hempty⟩ := ih haccounts₁ hchained₁
      (fun k d hkd => hcollectable k d (hkd.trans (hledger ▸ List.prefix_append _ _)))
      (Nat.le_of_succ_le_succ hfuel)
    refine ⟨w', ?_, hzero, hempty⟩
    rw [lastAddress_concat, Limiter.freeUpwards, hread, Option.bind_some, hfree, Option.bind_some]
    exact hrest

/-- The garbage collection frees every block, and unlocks if there was one. -/
theorem gc_kept (hd : c.debugExtraInfo) (haccounts : Accounts c w ledger)
    (hkept : ListKept c w ledger) (hcollectable : Collectable ledger) :
    ∃ w', w.gc c = some (w', decide (ledger = [])) ∧ w'.allocated = 0 ∧ w'.entries = ⟨none, []⟩ := by
  obtain ⟨bs, rfl, hchained⟩ := hkept
  rcases List.eq_nil_or_concat bs with rfl | ⟨l, b, rfl⟩
  · refine ⟨w, ?_, haccounts.total, hchained.links⟩
    rw [Limiter.gc, hchained.links]
    rfl
  · rw [List.concat_eq_append] at *
    have hlength : w.entries.cells.length = (l ++ [b]).length := by
      rw [hchained.links, ← congrArg List.length (map_linked (l ++ [b]) none none), List.length_map]
    have hlt : l.length < w.entries.cells.length := by
      rw [hlength, List.length_append, List.length_singleton]
      exact Nat.lt_succ_self _
    obtain ⟨tmp, htmp, hlast⟩ :=
      lastFrom_chained (k := []) (l := l) (a := b.1) (v := b.2) hchained hlt
    obtain ⟨w', hfree, hzero, hempty⟩ :=
      freeUpwards_chained hd _ haccounts hchained hcollectable (Nat.le_of_eq hlength.symm)
    have hhead : w.entries.head = some tmp := (congrArg Infra.Memory.head hchained.links).trans htmp
    rw [lastAddress_concat] at hfree
    have hnonempty : (l ++ [b]).map (owned c) ≠ [] := by simp
    refine ⟨w', ?_, hzero, hempty⟩
    simp only [Limiter.gc, hhead, hlast, hfree, Option.bind_some, Option.map_some, hnonempty,
      decide_false]

/-! ## Runs -/

/-- What holds of the list in a state: the entries are those of the live blocks; a call that meets
the condition is taken, and changes nothing if it returns `NULL`; and a garbage collection that meets
its condition frees every block and unlocks. -/
structure ListSound (c : Config) (s : Limiter × Ledger) : Prop where
  list : ListKept c s.1 s.2
  failed : ∀ e, Permitted c s e → Spares c s.1 e →
    ∃ r w, call c s.1 e = some (r, w) ∧ (e.limitType.isSome → r = none → w = s.1)
  collected : s.2 ≠ [] → Collectable s.2 →
    ∃ w, s.1.gc c = some (w, false) ∧ w.allocated = 0 ∧ w.entries = ⟨none, []⟩

/-- **In every run of calls that meet the condition, the list of entries is that of the live
blocks.** -/
theorem entries_kept (c : Config) (hd : c.debugExtraInfo) {calls : List Call}
    {s : Limiter × Ledger} (hrun : Infra.run (step c) (Limiter.init c, []) calls = some s)
    (hpermitted : Infra.AllSteps (step c) (Permitted c) (Limiter.init c, []) calls)
    (hspares : Infra.AllSteps (step c) (fun s e => Spares c s.1 e) (Limiter.init c, []) calls) :
    ListSound c s := by
  have hinit : ListKept c (Limiter.init c) [] := ⟨[], rfl, List.nodup_nil, rfl⟩
  obtain ⟨haccounts, hkept⟩ : Accounts c s.1 s.2 ∧ ListKept c s.1 s.2 := by
    refine Infra.run_invariant_of
      (P := fun s : Limiter × Ledger => Accounts c s.1 s.2 ∧ ListKept c s.1 s.2) ?_
      ⟨accounts_init c, hinit⟩ (hpermitted.and hspares) hrun
    rintro s e s' ⟨haccounts, hkept⟩ ⟨hp, hs⟩ hstep
    obtain ⟨r, w', hcall, haccounts', hkept', -⟩ :=
      call_kept hd haccounts hkept hp.1 hp.2 hs
    rw [step, hcall, Option.map_some, Option.some.injEq] at hstep
    rw [← hstep]
    exact ⟨haccounts', hkept'⟩
  refine ⟨hkept, fun e hp hs => ?_, fun hne hcollectable => ?_⟩
  · obtain ⟨r, w, hcall, -, -, hnull⟩ := call_kept hd haccounts hkept hp.1 hp.2 hs
    exact ⟨r, w, hcall, hnull⟩
  · obtain ⟨w, hgc, hzero, hempty⟩ := gc_kept hd haccounts hkept hcollectable
    rw [decide_eq_false hne] at hgc
    exact ⟨w, hgc, hzero, hempty⟩

/-- Three blocks, of which the newest is reallocated and the one in the middle is freed. -/
def middle : List Call :=
  [.alloc .application 100 (some 1024), .alloc .system 50 (some 2048),
    .alloc .application 20 (some 8192), .realloc .application (some 8376) 300 (some 4096),
    .free (some 2232)]

/-- What `middle` leaves. -/
def middleLeft : Limiter × Ledger :=
  (⟨524288, 526312, 768, ⟨some 4096, [⟨4096, some 1024, none, 484⟩, ⟨1024, none, some 4096, 284⟩]⟩⟩,
    [(4280, 484), (1208, 284)])

theorem entries_kept_middle : ListSound (build true) middleLeft := by
  have hrun : Infra.run (step (build true)) (Limiter.init (build true), []) middle =
      some middleLeft := by decide +kernel
  exact entries_kept (build true) rfl hrun (by decide +kernel) (by decide +kernel)

/-- The older of two blocks is reallocated: it is the first of the list, and has the other one before
it. A block is reallocated and the platform refuses: it is in the list no longer. And the garbage
collection of the empty list leaves the section locked. -/
theorem entries_kept_fails :
    (∃ s, Infra.run (step (build true)) (Limiter.init (build true), [])
        [.alloc .application 100 (some 1024), .alloc .application 50 (some 2048),
          .realloc .application (some 1208) 300 (some 4096)] = some s ∧
      s.1.entries = ⟨some 4096, [⟨4096, some 2048, some 2048, 484⟩, ⟨2048, none, some 4096, 234⟩]⟩ ∧
      ¬ ListSound (build true) s) ∧
    (∃ s, Infra.run (step (build true)) (Limiter.init (build true), [])
        [.alloc .application 100 (some 1024), .realloc .application (some 1208) 300 none] = some s ∧
      s.1.entries.head = none ∧ ¬ ListSound (build true) s) ∧
    (Limiter.init (build true)).gc (build true) = some (Limiter.init (build true), true) := by
  refine ⟨⟨(⟨524288, 526312, 718, ⟨some 4096, [⟨4096, some 2048, some 2048, 484⟩,
    ⟨2048, none, some 4096, 234⟩]⟩⟩, [(4280, 484), (2232, 234)]), by decide +kernel, rfl, ?_⟩,
    ⟨_, rfl, rfl, ?_⟩, rfl⟩
  · rintro ⟨⟨bs, -, hchained⟩, -, -⟩
    have hcells := congrArg Infra.Memory.cells hchained.links
    cases bs with
    | nil => cases hcells
    | cons b bs => cases congrArg Cell.prev (List.cons.inj hcells).1
  · rintro ⟨⟨bs, hledger, hchained⟩, -, -⟩
    have hhead := congrArg Infra.Memory.head hchained.links
    cases bs with
    | nil => cases hledger
    | cons b bs => cases hhead

end IotDeviceSdk.MemoryLimiter
