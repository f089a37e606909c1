import Mathlib.Data.List.Basic
import Mathlib.Data.List.Nodup

/-!
# Doubly linked lists in memory

Cells at addresses, each with the links of an intrusive list and a value. Reading or writing a
cell that is not there is `none`.

* `linked p bs n` is the list that visits `bs` in order, with `p` before it and `n` after it.
* `pushFront_linked`, `unlink_linked` and `find_linked` say what the usual operations do to such
  a list.
-/

namespace IotDeviceSdk.Infra

universe u v

/-- A cell with the links of an intrusive list. -/
structure Cell (α : Type u) (β : Type v) where
  address : α
  next : Option α
  prev : Option α
  value : β
  deriving DecidableEq, Repr

/-- The cells that are in memory and the head of their list. -/
structure Memory (α : Type u) (β : Type v) where
  head : Option α
  cells : List (Cell α β)
  deriving DecidableEq, Repr

namespace Memory

variable {α : Type u} {β : Type v} [DecidableEq α]

def read (m : Memory α β) (a : α) : Option (Cell α β) := m.cells.find? fun c => c.address = a

/-- `f` at the cell with address `a`. -/
def overwrite (a : α) (f : Cell α β → Cell α β) (c : Cell α β) : Cell α β :=
  if c.address = a then f c else c

def write (m : Memory α β) (a : α) (f : Cell α β → Cell α β) : Option (Memory α β) :=
  if (m.read a).isSome then some { m with cells := m.cells.map (overwrite a f) } else none

/-- The cell is no longer in memory. The links of the others stay. -/
def release (m : Memory α β) (a : α) : Memory α β :=
  { m with cells := m.cells.filter fun c => c.address ≠ a }

/-- The cell at `a` is copied to `b` and released. -/
def move (m : Memory α β) (a b : α) : Option (Memory α β) :=
  (m.read a).map fun c =>
    { m with cells := { c with address := b } :: (m.release a).cells }

/-- What comes after `p`, or first. -/
def setNext (m : Memory α β) (p n : Option α) : Option (Memory α β) :=
  match p with
  | some p => m.write p fun c => { c with next := n }
  | none => some { m with head := n }

/-- What comes before `n`, if that is a cell. -/
def setPrev (m : Memory α β) (n p : Option α) : Option (Memory α β) :=
  match n with
  | some n => m.write n fun c => { c with prev := p }
  | none => some m

/-- The neighbours of the cell `c` become neighbours of each other. -/
def unlink (m : Memory α β) (c : Cell α β) : Option (Memory α β) :=
  (m.setNext c.prev c.next).bind fun m => m.setPrev c.next c.prev

/-- The cell at `a` becomes the head. The first cell of a list keeps the links it has. -/
def pushFront (m : Memory α β) (a : α) : Option (Memory α β) :=
  match m.head with
  | none => some { m with head := some a }
  | some h =>
    (m.setNext (some a) (some h)).bind fun m =>
      (m.setPrev (some h) (some a)).map fun m => { m with head := some a }

/-- The walk from `q` to `a`, of at most `fuel` cells. -/
def find (m : Memory α β) (a : α) : Nat → Option α → Option (Option α)
  | _, none => some none
  | 0, some _ => none
  | fuel + 1, some q =>
    if q = a then some (some q) else (m.read q).bind fun c => m.find a fuel c.next

end Memory

/-! ## A list and its cells -/

section Linked

variable {α : Type u} {β : Type v}

def firstAddress (bs : List (α × β)) (n : Option α) : Option α := (bs.head?.map Prod.fst).or n

def lastAddress (p : Option α) (bs : List (α × β)) : Option α := (bs.getLast?.map Prod.fst).or p

/-- The cells of the list that visits `bs`, after `p` and before `n`. -/
def linked (p : Option α) : List (α × β) → Option α → List (Cell α β)
  | [], _ => []
  | (a, v) :: bs, n => ⟨a, firstAddress bs n, p, v⟩ :: linked (some a) bs n

@[simp] theorem firstAddress_nil (n : Option α) : firstAddress ([] : List (α × β)) n = n := rfl

@[simp] theorem firstAddress_cons (b : α × β) (bs : List (α × β)) (n : Option α) :
    firstAddress (b :: bs) n = some b.1 := rfl

theorem firstAddress_append (l r : List (α × β)) (n : Option α) :
    firstAddress (l ++ r) n = firstAddress l (firstAddress r n) := by
  cases l <;> rfl

@[simp] theorem lastAddress_nil (p : Option α) : lastAddress p ([] : List (α × β)) = p := rfl

@[simp] theorem lastAddress_concat (p : Option α) (bs : List (α × β)) (b : α × β) :
    lastAddress p (bs ++ [b]) = some b.1 := by
  simp [lastAddress]

theorem lastAddress_cons (p : Option α) (b : α × β) (bs : List (α × β)) :
    lastAddress p (b :: bs) = lastAddress (some b.1) bs := by
  rcases List.eq_nil_or_concat bs with rfl | ⟨bs, c, rfl⟩
  · rfl
  · simp only [List.concat_eq_append, lastAddress_concat, ← List.cons_append]

@[simp] theorem linked_cons (p : Option α) (b : α × β) (bs : List (α × β)) (n : Option α) :
    linked p (b :: bs) n = ⟨b.1, firstAddress bs n, p, b.2⟩ :: linked (some b.1) bs n := rfl

theorem linked_append (l r : List (α × β)) (n : Option α) : ∀ p : Option α,
    linked p (l ++ r) n = linked p l (firstAddress r n) ++ linked (lastAddress p l) r n := by
  induction l with
  | nil => intro p; rfl
  | cons b l ih =>
    intro p
    rw [List.cons_append, linked_cons, linked_cons, ih, lastAddress_cons, firstAddress_append,
      List.cons_append]

/-- Each cell holds the address and the value of one element. -/
@[simp] theorem map_linked (bs : List (α × β)) (n : Option α) : ∀ p : Option α,
    (linked p bs n).map (fun c => (c.address, c.value)) = bs := by
  induction bs with
  | nil => intro p; rfl
  | cons b bs ih => intro p; rw [linked_cons, List.map_cons, ih]

theorem address_mem_of_mem_linked {p n : Option α} {bs : List (α × β)} {c : Cell α β}
    (h : c ∈ linked p bs n) : c.address ∈ bs.map Prod.fst := by
  have hc := List.mem_map_of_mem (f := fun c : Cell α β => (c.address, c.value)) h
  rw [map_linked] at hc
  exact List.mem_map_of_mem (f := Prod.fst) hc

theorem address_ne_of_notMem {a : α} {p n : Option α} {bs : List (α × β)}
    (h : a ∉ bs.map Prod.fst) : ∀ c ∈ linked p bs n, c.address ≠ a := by
  rintro c hc rfl
  exact h (address_mem_of_mem_linked hc)

variable [DecidableEq α]

open Memory

/-- Cells without the address are not changed by a write. -/
theorem map_overwrite_of_notMem {a : α} {cs : List (Cell α β)} (f : Cell α β → Cell α β)
    (h : ∀ c ∈ cs, c.address ≠ a) : cs.map (overwrite a f) = cs :=
  (List.map_congr_left fun c hc => if_neg (h c hc)).trans (List.map_id cs)

theorem write_eq {m : Memory α β} {a : α} (f : Cell α β → Cell α β)
    (h : ∃ c ∈ m.cells, c.address = a) :
    m.write a f = some { m with cells := m.cells.map (overwrite a f) } := by
  have hread : (m.read a).isSome := by
    simp only [Memory.read, List.find?_isSome, decide_eq_true_eq]
    exact h
  rw [write, if_pos hread]

/-- What is written is read. -/
theorem read_of_write {m m' : Memory α β} {a : α} {f : Cell α β → Cell α β}
    (hf : ∀ c, (f c).address = c.address) (h : m.write a f = some m') :
    ∃ c, m.read a = some c ∧ m'.read a = some (f c) := by
  unfold write at h
  split at h
  · next hsome =>
    obtain ⟨c, hc⟩ := Option.isSome_iff_exists.1 hsome
    obtain rfl := Option.some.inj h
    have haddress : ∀ d : Cell α β, (overwrite a f d).address = d.address := by
      intro d
      unfold overwrite
      split
      · exact hf d
      · rfl
    refine ⟨c, hc, ?_⟩
    have hca : c.address = a := by simpa using List.find?_some hc
    unfold Memory.read at hc ⊢
    simp only [List.find?_map, Function.comp_def, haddress, hc, Option.map_some]
    rw [overwrite, if_pos hca]
  · cases h

/-- A write to the first cell. -/
theorem write_cons {m : Memory α β} {c : Cell α β} {cs : List (Cell α β)}
    (f : Cell α β → Cell α β) (h : m.cells = c :: cs) (hcs : ∀ d ∈ cs, d.address ≠ c.address) :
    m.write c.address f = some { m with cells := f c :: cs } := by
  rw [write_eq f ⟨c, h ▸ List.mem_cons_self, rfl⟩, h, List.map_cons,
    map_overwrite_of_notMem f hcs, overwrite, if_pos rfl]

/-- The cell at an address that the cells before it do not have. -/
theorem read_append_cons {m : Memory α β} {cs ds : List (Cell α β)} {c : Cell α β}
    (h : m.cells = cs ++ c :: ds) (hcs : ∀ d ∈ cs, d.address ≠ c.address) :
    m.read c.address = some c := by
  have hnone : cs.find? (fun d => d.address = c.address) = none := by
    rw [List.find?_eq_none]
    simpa using hcs
  rw [Memory.read, h, List.find?_append, hnone, List.find?_cons_of_pos (by simp)]
  rfl

theorem release_append_cons {m : Memory α β} {cs ds : List (Cell α β)} {c : Cell α β}
    (h : m.cells = cs ++ c :: ds) (hcs : ∀ d ∈ cs, d.address ≠ c.address)
    (hds : ∀ d ∈ ds, d.address ≠ c.address) : m.release c.address = ⟨m.head, cs ++ ds⟩ := by
  have hcs' : cs.filter (fun d => d.address ≠ c.address) = cs :=
    List.filter_eq_self.2 fun d hd => decide_eq_true (hcs d hd)
  have hds' : ds.filter (fun d => d.address ≠ c.address) = ds :=
    List.filter_eq_self.2 fun d hd => decide_eq_true (hds d hd)
  rw [release, h, List.filter_append, List.filter_cons_of_neg (by simp), hcs', hds']

/-- The last cell gets another one after it. -/
theorem map_next_linked {p x y : Option α} {l : List (α × β)} {b : α × β}
    (h : b.1 ∉ l.map Prod.fst) :
    (linked p (l ++ [b]) x).map (overwrite b.1 fun c => { c with next := y }) =
      linked p (l ++ [b]) y := by
  rw [linked_append, linked_append, List.map_append,
    map_overwrite_of_notMem _ (address_ne_of_notMem h)]
  simp [overwrite, linked]

/-- The first cell gets another one before it. -/
theorem map_prev_linked {p q n : Option α} {r : List (α × β)} {b : α × β}
    (h : b.1 ∉ r.map Prod.fst) :
    (linked p (b :: r) n).map (overwrite b.1 fun c => { c with prev := q }) =
      linked q (b :: r) n := by
  rw [linked_cons, linked_cons, List.map_cons,
    map_overwrite_of_notMem _ (address_ne_of_notMem h)]
  simp [overwrite]

/-! ## What the operations do to a list -/

/-- **The new first cell is the head, and the list goes on with what it was.** -/
theorem pushFront_linked {m : Memory α β} {a : α} {v : β} {n p q : Option α} {bs : List (α × β)}
    (hhead : m.head = firstAddress bs none) (hcells : m.cells = ⟨a, n, q, v⟩ :: linked p bs none)
    (ha : a ∉ bs.map Prod.fst) (hbs : (bs.map Prod.fst).Nodup) (hn : bs = [] → n = none) :
    m.pushFront a = some ⟨some a, linked q ((a, v) :: bs) none⟩ := by
  cases bs with
  | nil =>
    rw [pushFront, hhead]
    simp [hcells, hn rfl, linked]
  | cons b bs =>
    rw [List.map_cons, List.nodup_cons] at hbs
    have hab : a ≠ b.1 := fun h => ha (h ▸ List.mem_cons_self)
    rw [pushFront, hhead, firstAddress_cons]
    simp only [setNext, setPrev]
    rw [write_eq (a := a) _ ⟨_, hcells ▸ List.mem_cons_self, rfl⟩, Option.bind_some]
    simp only [hcells, List.map_cons, map_overwrite_of_notMem _ (address_ne_of_notMem ha)]
    rw [write_eq (a := b.1) _ ⟨_, List.mem_cons_of_mem _ List.mem_cons_self, rfl⟩]
    simp only [List.map_cons, map_prev_linked hbs.1]
    simp [overwrite, hab]

/-- What comes after the cells of `l` changes. -/
theorem setNext_linked {m : Memory α β} {p x y : Option α} {l : List (α × β)}
    {ds : List (Cell α β)} (hhead : m.head = firstAddress l x) (hcells : m.cells = linked p l x ++ ds)
    (hl : (l.map Prod.fst).Nodup) (hds : ∀ d ∈ ds, d.address ∉ l.map Prod.fst)
    (hp : l = [] → p = none) :
    m.setNext (lastAddress p l) y = some ⟨firstAddress l y, linked p l y ++ ds⟩ := by
  rcases List.eq_nil_or_concat l with rfl | ⟨l, b, rfl⟩
  · rw [hp rfl, lastAddress_nil, setNext, hcells]
    rfl
  · rw [List.concat_eq_append] at hhead hcells hl hds ⊢
    have hb : b.1 ∉ l.map Prod.fst := by
      rw [List.map_append, List.nodup_append'] at hl
      exact fun h => hl.2.2 h (by simp)
    have hds' : ∀ d ∈ ds, d.address ≠ b.1 := fun d hd h => hds d hd (by simp [h])
    have hmem : ∃ c ∈ m.cells, c.address = b.1 := by
      refine ⟨⟨b.1, x, lastAddress p l, b.2⟩, ?_, rfl⟩
      simp [hcells, linked_append, linked]
    simp only [lastAddress_concat, setNext]
    rw [write_eq _ hmem, hcells, List.map_append, map_next_linked hb,
      map_overwrite_of_notMem _ hds', hhead, firstAddress_append, firstAddress_append]
    rfl

/-- What comes before the cells of `r` changes. -/
theorem setPrev_linked {m : Memory α β} {p q : Option α} {r : List (α × β)}
    {l : List (Cell α β)} (hcells : m.cells = l ++ linked q r none)
    (hr : (r.map Prod.fst).Nodup) (hcs : ∀ c ∈ l, c.address ∉ r.map Prod.fst) :
    m.setPrev (firstAddress r none) p = some ⟨m.head, l ++ linked p r none⟩ := by
  cases r with
  | nil =>
    rw [firstAddress_nil, setPrev]
    exact congrArg some (congrArg (Memory.mk m.head) hcells)
  | cons b r =>
    rw [List.map_cons, List.nodup_cons] at hr
    have hcs' : ∀ c ∈ l, c.address ≠ b.1 := fun c hc h => hcs c hc (by simp [h])
    have hmem : ∃ c ∈ m.cells, c.address = b.1 := by
      refine ⟨⟨b.1, firstAddress r none, q, b.2⟩, ?_, rfl⟩
      simp [hcells]
    simp only [firstAddress_cons, setPrev]
    rw [write_eq _ hmem, hcells, List.map_append, map_prev_linked hr.1,
      map_overwrite_of_notMem _ hcs']

/-- **A cell with correct links leaves the list of the other cells behind.** -/
theorem unlink_linked {m : Memory α β} {a : α} {v : β} {p : Option α} {l r : List (α × β)}
    (hhead : m.head = firstAddress (l ++ (a, v) :: r) none)
    (hcells : m.cells = linked p (l ++ (a, v) :: r) none)
    (hdistinct : ((l ++ (a, v) :: r).map Prod.fst).Nodup) (hp : l = [] → p = none) :
    m.unlink ⟨a, firstAddress r none, lastAddress p l, v⟩ =
      some ⟨firstAddress (l ++ r) none, linked p l (firstAddress r none) ++
        ⟨a, firstAddress r none, lastAddress p l, v⟩ :: linked (lastAddress p l) r none⟩ := by
  rw [List.map_append, List.map_cons, List.nodup_append', List.nodup_cons] at hdistinct
  obtain ⟨hl, ⟨har, hr⟩, hdisjoint⟩ := hdistinct
  rw [linked_append, linked_cons, firstAddress_cons] at hcells
  rw [firstAddress_append, firstAddress_cons] at hhead
  have hnext := setNext_linked (y := firstAddress r none) hhead hcells hl (fun d hd hmem => by
    rcases List.mem_cons.1 hd with rfl | hd
    · exact hdisjoint hmem List.mem_cons_self
    · exact hdisjoint hmem (List.mem_cons_of_mem _ (address_mem_of_mem_linked hd))) hp
  have hprev := setPrev_linked (p := lastAddress p l) (q := some a) (r := r)
    (m := ⟨firstAddress l (firstAddress r none), linked p l (firstAddress r none) ++
      ⟨a, firstAddress r none, lastAddress p l, v⟩ :: linked (some a) r none⟩)
    (l := linked p l (firstAddress r none) ++ [⟨a, firstAddress r none, lastAddress p l, v⟩])
    (by simp) hr (fun c hc hmem => by
      rcases List.mem_append.1 hc with hc | hc
      · exact hdisjoint (address_mem_of_mem_linked hc) (List.mem_cons_of_mem _ hmem)
      · obtain rfl := List.mem_singleton.1 hc
        exact har hmem)
  rw [unlink, hnext, Option.bind_some, hprev, firstAddress_append]
  simp

/-- A cell of the list, with the links that it has there. -/
theorem read_linked {m : Memory α β} {a : α} {v : β} {p : Option α} {l r : List (α × β)}
    (hcells : m.cells = linked p (l ++ (a, v) :: r) none)
    (hdistinct : ((l ++ (a, v) :: r).map Prod.fst).Nodup) :
    m.read a = some ⟨a, firstAddress r none, lastAddress p l, v⟩ := by
  rw [List.map_append, List.map_cons, List.nodup_append'] at hdistinct
  have hal : a ∉ l.map Prod.fst := fun h => hdistinct.2.2 h List.mem_cons_self
  rw [linked_append, linked_cons] at hcells
  exact read_append_cons hcells (address_ne_of_notMem hal)

/-- **The walk finds every cell of a list.** -/
theorem find_linked {m : Memory α β} {a : α} {v : β} {p : Option α} {r : List (α × β)}
    {l : List (α × β)} : ∀ {k : List (α × β)} {fuel : Nat},
      m.cells = linked p (k ++ (l ++ (a, v) :: r)) none →
      ((k ++ (l ++ (a, v) :: r)).map Prod.fst).Nodup → l.length < fuel →
      m.find a fuel (firstAddress (l ++ (a, v) :: r) none) = some (some a) := by
  induction l with
  | nil =>
    intro k fuel _ _ hfuel
    obtain ⟨fuel, rfl⟩ := Nat.exists_eq_add_of_lt hfuel
    simp [find]
  | cons b l ih =>
    intro k fuel hcells hdistinct hfuel
    obtain ⟨fuel, rfl⟩ := Nat.exists_eq_add_of_le' (Nat.succ_le_of_lt (Nat.zero_lt_of_lt hfuel))
    have hread := read_linked (l := k) (a := b.1) (v := b.2) (r := l ++ (a, v) :: r)
      hcells hdistinct
    have hne : b.1 ≠ a := by
      rw [List.map_append, List.nodup_append', List.cons_append, List.map_cons,
        List.nodup_cons] at hdistinct
      exact fun h => hdistinct.2.1.1 (by simp [h])
    rw [List.cons_append, firstAddress_cons, find, if_neg hne, hread, Option.bind_some]
    refine ih (k := k ++ [b]) ?_ ?_ (Nat.lt_of_succ_lt_succ hfuel)
    · simpa using hcells
    · simpa using hdistinct

end Linked

end IotDeviceSdk.Infra
