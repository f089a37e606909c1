import IotDeviceSdk.Infra.Chain
import Mathlib.Data.List.Infix

/-!
# The list macros (`iotc_list.h`)

The macros work on elements that carry a `__next` field of their own. `list` is a variable of the
caller, and the empty list is `NULL`. A macro does not look at the field of an element that it appends,
and `IOTC_LIST_POP` does not look whether there is an element.

A loop has a number of tests that it may make; without enough of them, and when `NULL` is read from or
written to, there is no result.
-/

namespace IotDeviceSdk.Datastructures

open Infra

universe u v

/-- The variable `list`, and the `__next` fields of all elements. -/
structure IotcList (α : Type u) where
  next : α → Option α
  list : Option α

namespace IotcList

variable {α : Type u} [DecidableEq α]

/-- `p->__next = value` -/
def setNext (s : IotcList α) (p value : Option α) : Option (IotcList α) :=
  p.map fun p => { s with next := Function.update s.next p value }

/-- `IOTC_LIST_PUSH_BACK` -/
def pushBack (fuel : Nat) (s : IotcList α) (elem : α) : Option (IotcList α) := do
  let (prev, curr) ← walk s.next (fun _ => false) fuel s.list s.list
  if prev = curr then some { s with list := some elem }
  else s.setNext prev (some elem)

/-- `IOTC_LIST_PUSH_FRONT` -/
def pushFront (s : IotcList α) (elem : α) : IotcList α :=
  if s.list ≠ none then { next := Function.update s.next elem s.list, list := some elem }
  else { s with list := some elem }

/-- `IOTC_LIST_FIND`, with what it assigns to `out`. -/
def find (fuel : Nat) (s : IotcList α) (cnd : α → Bool) : Option (Option α) :=
  (walk s.next cnd fuel s.list s.list).map Prod.snd

/-- `IOTC_LIST_DROP` -/
def drop (fuel : Nat) (s : IotcList α) (elem : α) : Option (IotcList α) := do
  let (prev, curr) ← walk s.next (fun curr => curr = elem) fuel s.list s.list
  if curr = some elem then
    if prev = curr then some { next := Function.update s.next elem none, list := s.next elem }
    else (s.setNext prev (s.next elem)).bind fun s => s.setNext (some elem) none
  else some s

/-- `IOTC_LIST_POP`, with what it assigns to `out`. -/
def pop (s : IotcList α) : Option (α × IotcList α) :=
  s.list.map fun out =>
    if s.next out = none then (out, { s with list := none })
    else (out, { next := Function.update s.next out none, list := s.next out })

/-- The loop of `IOTC_LIST_FOREACH` and `IOTC_LIST_FOREACH_WITH_ARG`, from `curr` on. `links` is where
the `__next` fields are in a memory, and `function` may change the memory. -/
def forEach {σ : Type v} (links : σ → α → Option α) (function : α → σ → σ) :
    Nat → σ → Option α → Option σ
  | 0, _, _ => none
  | _ + 1, m, none => some m
  | fuel + 1, m, some curr => forEach links function fuel (function curr m) (links m curr)

/-- The variables of `IOTC_LIST_SPLIT_I` that its loop assigns to. -/
structure Splitting (α : Type u) where
  next : α → Option α
  list : Option α
  out : Option α
  outCurr : Option α
  prev : Option α

/-- `curr` is no longer in `list`. -/
def Splitting.unlink (s : Splitting α) (curr : α) : Splitting α :=
  match s.prev with
  | some prev => { s with next := Function.update s.next prev (s.next curr) }
  | none => { s with list := s.next curr }

/-- `curr` is the last element of `out`. -/
def Splitting.append (s : Splitting α) (curr : α) : Splitting α :=
  match s.outCurr with
  | some outCurr => { s with next := Function.update s.next outCurr (some curr), outCurr := some curr }
  | none => { s with outCurr := some curr, out := some curr }

/-- The loop of `IOTC_LIST_SPLIT_I`. -/
def splitLoop (pred : α → Nat → Int) : Nat → Splitting α → Nat → Option α → Option (Splitting α)
  | 0, _, _, _ => none
  | _ + 1, s, _, none => some s
  | fuel + 1, s, i, some curr =>
    if pred curr i = 1 then
      let s := (s.unlink curr).append curr
      splitLoop pred fuel { s with next := Function.update s.next curr none } (i + 1) (s.next curr)
    else splitLoop pred fuel { s with prev := some curr } (i + 1) (s.next curr)

/-- `IOTC_LIST_SPLIT_I`, with what `out` is afterwards. -/
def split (fuel : Nat) (s : IotcList α) (pred : α → Nat → Int) (out : Option α) :
    Option (IotcList α × Option α) :=
  (splitLoop pred fuel ⟨s.next, s.list, out, out, none⟩ 0 s.list).map fun t => (⟨t.next, t.list⟩, t.out)

/-! ## What a list is -/

/-- `list` is finite and without a cycle, and visits `l`. -/
structure Represents (s : IotcList α) (l : List α) : Prop where
  chain : Chain s.next s.list l none
  nodup : l.Nodup

/-- The links of other elements than those of `l` are the same. -/
def SameOutside (l : List α) (s s' : IotcList α) : Prop := ∀ a, a ∉ l → s'.next a = s.next a

variable {s s' : IotcList α} {l r : List α} {elem : α}

omit [DecidableEq α] in
theorem Represents.of_chain (h : Chain s.next s.list l none) : s.Represents l := ⟨h, h.nodup⟩

omit [DecidableEq α] in
theorem SameOutside.refl (l : List α) (s : IotcList α) : SameOutside l s s := fun _ _ => rfl

/-- A written link. -/
theorem sameOutside_update {x : Option α} (h : elem ∈ l) (list : Option α) :
    SameOutside l s ⟨Function.update s.next elem x, list⟩ := by
  intro a ha
  have hne : a ≠ elem := fun hae => ha (hae ▸ h)
  exact Function.update_of_ne hne x s.next

/-- The elements that satisfy the predicate, with the indices from `i` on. -/
def satisfying (pred : α → Nat → Int) (i : Nat) (l : List α) : List α :=
  ((l.zipIdx i).filter fun x => pred x.1 x.2 = 1).map Prod.fst

/-- The rest. -/
def others (pred : α → Nat → Int) (i : Nat) (l : List α) : List α :=
  ((l.zipIdx i).filter fun x => pred x.1 x.2 ≠ 1).map Prod.fst

/-! ## The single macros -/

/-- The last element gets a link to the new one. -/
theorem pushBack_represents (h : s.Represents l) (hmem : elem ∉ l) (hnext : s.next elem = none)
    {fuel : Nat} (hfuel : l.length < fuel) :
    ∃ s', s.pushBack fuel elem = some s' ∧ s'.Represents (l ++ [elem]) ∧ SameOutside l s s' := by
  have hwalk : walk s.next (fun _ => false) fuel s.list s.list = some (l.getLast?.or s.list, none) :=
    walk_end h.chain (fun _ _ => rfl) hfuel s.list
  rcases List.eq_nil_or_concat l with rfl | ⟨l, last, rfl⟩
  · have hlist : s.list = none := h.chain
    refine ⟨{ s with list := some elem }, ?_, .of_chain ⟨rfl, hnext⟩, .refl _ _⟩
    rw [pushBack, hwalk, hlist]
    rfl
  · rw [List.concat_eq_append] at h hmem hwalk ⊢
    have hlast : last ∉ l := notMem_of_nodup_concat h.nodup
    have hne : elem ≠ last := fun he => hmem (by simp [he])
    refine ⟨⟨Function.update s.next last (some elem), s.list⟩, ?_, .of_chain ?_, ?_⟩
    · rw [pushBack, hwalk]
      simp [setNext]
    · refine chain_concat.2 ⟨h.chain.update_last hlast (some elem), ?_⟩
      exact (Function.update_of_ne hne (some elem) s.next).trans hnext
    · exact sameOutside_update (by simp) s.list

theorem pushFront_represents (h : s.Represents l) (hmem : elem ∉ l)
    (hnext : l = [] → s.next elem = none) :
    (s.pushFront elem).Represents (elem :: l) ∧ SameOutside [elem] s (s.pushFront elem) := by
  unfold pushFront
  split
  · refine ⟨.of_chain ⟨rfl, ?_⟩, sameOutside_update List.mem_cons_self _⟩
    show Chain _ (Function.update s.next elem s.list elem) l none
    rw [Function.update_self]
    exact h.chain.update hmem s.list
  · next hlist =>
    have hnil : l = [] := by
      have hhead := h.chain.head_eq
      cases l with
      | nil => rfl
      | cons a l => exact absurd hhead (by simpa using fun hs => hlist (by simp [hs]))
    subst hnil
    exact ⟨.of_chain ⟨rfl, hnext rfl⟩, .refl _ _⟩

omit [DecidableEq α] in
theorem find_eq (h : s.Represents l) (cnd : α → Bool) {fuel : Nat} (hfuel : l.length < fuel) :
    s.find fuel cnd = some (l.find? cnd) := by
  unfold find
  cases hfind : l.find? cnd with
  | none =>
    have hl : ∀ a ∈ l, cnd a = false := by simpa using hfind
    rw [walk_end h.chain hl hfuel, Option.map_some]
  | some a =>
    obtain ⟨ha, as, bs, rfl, has⟩ := List.find?_eq_some_iff_append.1 hfind
    have hlength : as.length < fuel := by
      rw [List.length_append] at hfuel
      omega
    rw [walk_eq h.chain (by simpa using has) (by simpa using ha) hlength, Option.map_some]
    rfl

theorem pop_represents (h : s.Represents (elem :: l)) :
    ∃ s', s.pop = some (elem, s') ∧ s'.Represents l ∧ s'.next elem = none ∧ SameOutside [elem] s s' := by
  obtain ⟨hlist, hl⟩ := h.chain
  have hmem : elem ∉ l := (List.nodup_cons.1 h.nodup).1
  by_cases hnext : s.next elem = none
  · refine ⟨{ s with list := none }, ?_, .of_chain ?_, hnext, .refl _ _⟩
    · rw [pop, hlist, Option.map_some, if_pos hnext]
    · rwa [hnext] at hl
  · refine ⟨⟨Function.update s.next elem none, s.next elem⟩, ?_, .of_chain (hl.update hmem none),
      Function.update_self elem none s.next, sameOutside_update List.mem_cons_self _⟩
    rw [pop, hlist, Option.map_some, if_neg hnext]

/-- An element that is not in the list is not found. -/
theorem drop_of_notMem (h : s.Represents l) (hmem : elem ∉ l) {fuel : Nat} (hfuel : l.length < fuel) :
    s.drop fuel elem = some s := by
  have hstop : ∀ a ∈ l, decide (a = elem) = false := by
    intro a ha
    have hne : a ≠ elem := fun hae => hmem (hae ▸ ha)
    simpa using hne
  rw [drop, walk_end h.chain hstop hfuel]
  rfl

/-- The elements before and behind the dropped one are linked, and its own link is cleared. -/
theorem drop_represents (h : s.Represents (l ++ elem :: r)) {fuel : Nat} (hfuel : l.length < fuel) :
    ∃ s', s.drop fuel elem = some s' ∧ s'.Represents (l ++ r) ∧ s'.next elem = none ∧
      SameOutside (l ++ [elem]) s s' := by
  obtain ⟨-, helem, hdisjoint⟩ := List.nodup_append'.1 h.nodup
  have hl : elem ∉ l := fun hl => hdisjoint hl List.mem_cons_self
  have hr : elem ∉ r := (List.nodup_cons.1 helem).1
  have hstop : ∀ a ∈ l, decide (a = elem) = false := by
    intro a ha
    have hne : a ≠ elem := fun hae => hl (hae ▸ ha)
    simpa using hne
  have hwalk := walk_eq h.chain hstop (by simp) hfuel s.list
  rw [List.head?_cons] at hwalk
  obtain ⟨p, hbefore, rfl, hbehind⟩ := chain_append.1 h.chain
  rcases List.eq_nil_or_concat l with rfl | ⟨l, prev, rfl⟩
  · have hlist : s.list = some elem := hbefore
    refine ⟨⟨Function.update s.next elem none, s.next elem⟩, ?_, .of_chain (hbehind.update hr none),
      Function.update_self elem none s.next, sameOutside_update (by simp) _⟩
    rw [drop, hwalk, hlist]
    simp
  · rw [List.concat_eq_append] at h hl hwalk hbefore hdisjoint ⊢
    have hne : prev ≠ elem := fun he => hl (by simp [he])
    have hprev : prev ∉ l := notMem_of_nodup_concat (List.nodup_append'.1 h.nodup).1
    have hprev' : prev ∉ r := fun hm => hdisjoint (by simp) (List.mem_cons_of_mem _ hm)
    refine ⟨⟨Function.update (Function.update s.next prev (s.next elem)) elem none, s.list⟩, ?_,
      .of_chain (chain_append.2 ⟨s.next elem, ?_, ?_⟩),
      Function.update_self elem none (Function.update s.next prev (s.next elem)), ?_⟩
    · rw [drop, hwalk]
      simp [setNext, hne]
    · exact (hbefore.update_last hprev (s.next elem)).update hl none
    · exact (hbehind.update hprev' (s.next elem)).update hr none
    · intro a ha
      have hae : a ≠ elem := fun he => ha (by simp [he])
      have hap : a ≠ prev := fun he => ha (by simp [he])
      exact (Function.update_of_ne hae _ _).trans (Function.update_of_ne hap _ _)

omit [DecidableEq α] in
/-- The function is called once for each element, in the order of the list, if it leaves the links of
the other elements as they are. -/
theorem forEach_eq {σ : Type v} {links : σ → α → Option α} {function : α → σ → σ}
    (hframe : ∀ a m b, b ≠ a → links (function a m) b = links m b) {m : σ} {p : Option α}
    (h : Chain (links m) p l none) {fuel : Nat} (hfuel : l.length < fuel) :
    forEach links function fuel m p = some (l.foldl (fun m a => function a m) m) := by
  induction l generalizing m p fuel with
  | nil =>
    obtain rfl := h
    obtain ⟨fuel, rfl⟩ := Nat.exists_eq_add_of_lt hfuel
    rw [List.length_nil, Nat.zero_add, forEach, List.foldl_nil]
  | cons a l ih =>
    have hmem : a ∉ l := (List.nodup_cons.1 h.nodup).1
    obtain ⟨rfl, h⟩ := h
    obtain ⟨fuel, rfl⟩ : ∃ n, fuel = n + 1 := ⟨fuel - 1, by omega⟩
    -- the call for `a` comes after the link of `a` has been read
    have hl : Chain (links (function a m)) (links m a) l none := by
      refine h.congr fun b hb => hframe a m b fun hba => ?_
      exact hmem (hba ▸ hb)
    rw [forEach, List.foldl_cons]
    exact ih hl (by simpa using hfuel)

/-! ## The loop of `IOTC_LIST_SPLIT_I` -/

/-- **The invariant of the loop**: `list` leads through `kept` to `curr`, `out` is `taken`, and `l` is
still to be looked at. The other links are those of `next₀`. -/
structure Splits (next₀ : α → Option α) (s : Splitting α) (kept taken l : List α) (curr : Option α) :
    Prop where
  list : Chain s.next s.list kept curr
  prev : s.prev = kept.getLast?
  out : Chain s.next s.out taken none
  outCurr : s.outCurr = taken.getLast?
  curr : Chain s.next curr l none
  nodup : (kept ++ taken ++ l).Nodup
  same : ∀ a, a ∉ kept ++ taken ++ l → s.next a = next₀ a

variable {next₀ : α → Option α} {t : Splitting α} {kept taken : List α} {a : α} {curr : Option α}

omit [DecidableEq α] in
/-- An element stays. -/
theorem Splits.keep (h : Splits next₀ t kept taken (a :: l) curr) :
    Splits next₀ { t with prev := some a } (kept ++ [a]) taken l (t.next a) := by
  obtain ⟨rfl, hl⟩ := h.curr
  have hperm : (kept ++ [a] ++ taken ++ l).Perm (kept ++ taken ++ a :: l) := by
    have hmiddle : (a :: (taken ++ l)).Perm (taken ++ a :: l) := List.perm_middle.symm
    simpa [List.append_assoc] using hmiddle.append_left kept
  refine ⟨chain_concat.2 ⟨h.list, rfl⟩, by simp, h.out, h.outCurr, hl, hperm.nodup_iff.2 h.nodup, ?_⟩
  exact fun b hb => h.same b fun hmem => hb (hperm.mem_iff.2 hmem)

/-- `list` leads past `a`. -/
theorem unlink_chain (hlist : Chain t.next t.list kept (some a)) (hprev : t.prev = kept.getLast?)
    (hkept : kept.Nodup) :
    Chain (t.unlink a).next (t.unlink a).list kept (t.next a) ∧
      (∀ b, b ∉ kept → (t.unlink a).next b = t.next b) ∧
      (t.unlink a).out = t.out ∧ (t.unlink a).outCurr = t.outCurr ∧ (t.unlink a).prev = t.prev := by
  unfold Splitting.unlink
  rcases List.eq_nil_or_concat kept with rfl | ⟨l, last, rfl⟩
  · have hnone : t.prev = none := hprev
    rw [hnone]
    exact ⟨rfl, fun _ _ => rfl, rfl, rfl, rfl⟩
  · rw [List.concat_eq_append] at hlist hprev hkept ⊢
    have hlast : last ∉ l := notMem_of_nodup_concat hkept
    have hsome : t.prev = some last := by simp [hprev]
    rw [hsome]
    refine ⟨hlist.update_last hlast (t.next a), fun b hb => ?_, rfl, rfl, rfl⟩
    have hne : b ≠ last := fun he => hb (by simp [he])
    exact Function.update_of_ne hne (t.next a) t.next

/-- `out` leads to `a`. -/
theorem append_chain (hout : Chain t.next t.out taken none) (houtCurr : t.outCurr = taken.getLast?)
    (htaken : taken.Nodup) :
    Chain (t.append a).next (t.append a).out taken (some a) ∧
      (∀ b, b ∉ taken → (t.append a).next b = t.next b) ∧
      (t.append a).list = t.list ∧ (t.append a).outCurr = some a ∧ (t.append a).prev = t.prev := by
  unfold Splitting.append
  rcases List.eq_nil_or_concat taken with rfl | ⟨l, last, rfl⟩
  · have hnone : t.outCurr = none := houtCurr
    rw [hnone]
    exact ⟨rfl, fun _ _ => rfl, rfl, rfl, rfl⟩
  · rw [List.concat_eq_append] at hout houtCurr htaken ⊢
    have hlast : last ∉ l := notMem_of_nodup_concat htaken
    have hsome : t.outCurr = some last := by simp [houtCurr]
    rw [hsome]
    refine ⟨hout.update_last hlast (some a), fun b hb => ?_, rfl, rfl, rfl⟩
    have hne : b ≠ last := fun he => hb (by simp [he])
    exact Function.update_of_ne hne (some a) t.next

/-- An element goes to the other list. -/
theorem Splits.take (h : Splits next₀ t kept taken (a :: l) curr) :
    ((t.unlink a).append a).next a = t.next a ∧
      Splits next₀ { (t.unlink a).append a with
        next := Function.update ((t.unlink a).append a).next a none }
        kept (taken ++ [a]) l (t.next a) := by
  obtain ⟨rfl, hl⟩ := h.curr
  obtain ⟨hkt, hal, hdisjoint⟩ := List.nodup_append'.1 h.nodup
  obtain ⟨hkept, htaken, hapart⟩ := List.nodup_append'.1 hkt
  have ha : a ∉ kept ∧ a ∉ taken := by
    constructor <;> exact fun hm => hdisjoint (by simp [hm]) List.mem_cons_self
  obtain ⟨hlist₁, hsame₁, hout₁, houtCurr₁, hprev₁⟩ := unlink_chain h.list h.prev hkept
  have hout : Chain (t.unlink a).next (t.unlink a).out taken none := by
    rw [hout₁]
    exact h.out.congr fun b hb => hsame₁ b fun hk => hapart hk hb
  obtain ⟨hout₂, hsame₂, hlist₂, houtCurr₂, hprev₂⟩ :=
    append_chain (a := a) hout (houtCurr₁.trans h.outCurr) htaken
  have hsame : ∀ b, b ∉ kept → b ∉ taken → ((t.unlink a).append a).next b = t.next b :=
    fun b hk ht => (hsame₂ b ht).trans (hsame₁ b hk)
  have hlist : Chain ((t.unlink a).append a).next ((t.unlink a).append a).list kept (t.next a) := by
    rw [hlist₂]
    exact hlist₁.congr fun b hb => hsame₂ b fun ht => hapart hb ht
  have hrest : Chain ((t.unlink a).append a).next (t.next a) l none := by
    refine hl.congr fun b hb => hsame b ?_ ?_
    · exact fun hm => hdisjoint (by simp [hm]) (List.mem_cons_of_mem _ hb)
    · exact fun hm => hdisjoint (by simp [hm]) (List.mem_cons_of_mem _ hb)
  refine ⟨hsame a ha.1 ha.2, ?_⟩
  exact {
    list := hlist.update ha.1 none
    prev := hprev₂.trans (hprev₁.trans h.prev)
    out := chain_concat.2
      ⟨hout₂.update ha.2 none, Function.update_self a none ((t.unlink a).append a).next⟩
    outCurr := by simpa using houtCurr₂
    curr := hrest.update (List.nodup_cons.1 hal).1 none
    nodup := by simpa [List.append_assoc] using h.nodup
    same := by
      intro b hb
      have hne : b ≠ a := fun he => hb (by simp [he])
      have hold : t.next b = next₀ b := h.same b fun hm => hb (by simpa [List.append_assoc] using hm)
      have hnext := hsame b (fun hk => hb (by simp [hk])) (fun ht => hb (by simp [ht]))
      exact (Function.update_of_ne hne _ _).trans (hnext.trans hold) }

/-- **The loop keeps the elements that do not satisfy the predicate, and takes the others**, both in the
order of the list. -/
theorem splitLoop_eq (pred : α → Nat → Int) (h : Splits next₀ t kept taken l curr) {fuel : Nat}
    (hfuel : l.length < fuel) (i : Nat) :
    ∃ t', splitLoop pred fuel t i curr = some t' ∧
      Splits next₀ t' (kept ++ others pred i l) (taken ++ satisfying pred i l) [] none := by
  induction l generalizing t kept taken curr fuel i with
  | nil =>
    obtain rfl := h.curr
    obtain ⟨fuel, rfl⟩ := Nat.exists_eq_add_of_lt hfuel
    refine ⟨t, by rw [List.length_nil, Nat.zero_add, splitLoop], ?_⟩
    simpa [others, satisfying] using h
  | cons a l ih =>
    have hcurr : curr = some a := h.curr.1
    obtain ⟨fuel, rfl⟩ : ∃ n, fuel = n + 1 := ⟨fuel - 1, by omega⟩
    rw [hcurr, splitLoop]
    split
    · next hpred =>
      obtain ⟨hnext, htake⟩ := h.take
      obtain ⟨t', hrun, ht'⟩ := ih htake (by simpa using hfuel) (i + 1)
      refine ⟨t', ?_, ?_⟩
      · simp only [hnext]
        exact hrun
      · simpa [others, satisfying, hpred, List.append_assoc] using ht'
    · next hpred =>
      obtain ⟨t', hrun, ht'⟩ := ih h.keep (by simpa using hfuel) (i + 1)
      refine ⟨t', hrun, ?_⟩
      simpa [others, satisfying, hpred, List.append_assoc] using ht'

omit [DecidableEq α] in
/-- Every element is in one of the two parts. -/
theorem others_append_satisfying_perm (pred : α → Nat → Int) (i : Nat) (l : List α) :
    (others pred i l ++ satisfying pred i l).Perm l := by
  have hperm := List.filter_append_perm (fun x : α × Nat => decide (pred x.1 x.2 ≠ 1)) (l.zipIdx i)
  have hmap := hperm.map Prod.fst
  rw [List.map_append, List.zipIdx_map_fst] at hmap
  simpa [others, satisfying] using hmap

/-- **The list is split** into the elements that do not satisfy the predicate and those that do. -/
theorem split_represents (h : s.Represents l) (pred : α → Nat → Int) {fuel : Nat}
    (hfuel : l.length < fuel) :
    ∃ s' out, s.split fuel pred none = some (s', out) ∧ s'.Represents (others pred 0 l) ∧
      (IotcList.mk s'.next out).Represents (satisfying pred 0 l) ∧
      (others pred 0 l).Disjoint (satisfying pred 0 l) ∧ SameOutside l s s' := by
  have hstart : Splits s.next ⟨s.next, s.list, none, none, none⟩ [] [] l s.list :=
    { list := rfl, prev := rfl, out := rfl, outCurr := rfl, curr := h.chain, nodup := h.nodup,
      same := fun _ _ => rfl }
  obtain ⟨t, hrun, ht⟩ := splitLoop_eq pred hstart hfuel 0
  rw [List.nil_append, List.nil_append] at ht
  have hperm := others_append_satisfying_perm pred 0 l
  have hdisjoint := (List.nodup_append'.1 (hperm.nodup_iff.2 h.nodup)).2.2
  have hsplit : s.split fuel pred none = some (⟨t.next, t.list⟩, t.out) := by
    rw [split, hrun]
    rfl
  refine ⟨⟨t.next, t.list⟩, t.out, hsplit, .of_chain ht.list, .of_chain ht.out, hdisjoint, ?_⟩
  intro a ha
  refine ht.same a fun hmem => ha ?_
  rw [List.append_nil] at hmem
  exact hperm.mem_iff.1 hmem

/-! ## All macros -/

/-- **What the macros do to the list that visits `l`.** The tests of `NULL` that a loop makes are one more
than the elements. -/
structure ActAsSequence (s : IotcList α) (l : List α) : Prop where
  pushBack : ∀ elem fuel, elem ∉ l → s.next elem = none → l.length < fuel →
    ∃ s', s.pushBack fuel elem = some s' ∧ s'.Represents (l ++ [elem]) ∧ SameOutside l s s'
  pushFront : ∀ elem, elem ∉ l → (l = [] → s.next elem = none) →
    (s.pushFront elem).Represents (elem :: l) ∧ SameOutside [elem] s (s.pushFront elem)
  pop : ∀ elem r, l = elem :: r →
    ∃ s', s.pop = some (elem, s') ∧ s'.Represents r ∧ s'.next elem = none ∧ SameOutside [elem] s s'
  drop : ∀ elem fuel, l.length < fuel →
    ∃ s', s.drop fuel elem = some s' ∧ s'.Represents (l.erase elem) ∧ (elem ∈ l → s'.next elem = none) ∧
      SameOutside l s s'
  find : ∀ cnd fuel, l.length < fuel → s.find fuel cnd = some (l.find? cnd)
  forEach : ∀ {σ : Type u} (links : σ → α → Option α) (function : α → σ → σ) (m : σ) (fuel : Nat),
    (∀ a m b, b ≠ a → links (function a m) b = links m b) → links m = s.next → l.length < fuel →
    forEach links function fuel m s.list = some (l.foldl (fun m a => function a m) m)
  split : ∀ pred fuel, l.length < fuel →
    ∃ s' out, s.split fuel pred none = some (s', out) ∧ s'.Represents (others pred 0 l) ∧
      (IotcList.mk s'.next out).Represents (satisfying pred 0 l) ∧
      (others pred 0 l).Disjoint (satisfying pred 0 l) ∧ SameOutside l s s'

/-- **The macros are the operations on sequences**, for a list without a cycle. -/
theorem macros_actAsSequence (h : s.Represents l) : s.ActAsSequence l where
  pushBack elem fuel hmem hnext hfuel := pushBack_represents h hmem hnext hfuel
  pushFront elem hmem hnext := pushFront_represents h hmem hnext
  pop elem r hl := by
    subst hl
    exact pop_represents h
  drop elem fuel hfuel := by
    by_cases hmem : elem ∈ l
    · obtain ⟨before, behind, rfl, hbefore⟩ := List.eq_append_cons_of_mem hmem
      have hlength : before.length < fuel := by
        rw [List.length_append] at hfuel
        omega
      obtain ⟨s', hdrop, hs', hnext, hsame⟩ := drop_represents h hlength
      rw [List.erase_append_right _ hbefore, List.erase_cons_head]
      refine ⟨s', hdrop, hs', fun _ => hnext, fun a ha => hsame a fun hm => ha ?_⟩
      rcases List.mem_append.1 hm with hm | hm
      · exact List.mem_append_left _ hm
      · obtain rfl := List.mem_singleton.1 hm
        exact List.mem_append_right _ List.mem_cons_self
    · rw [List.erase_of_not_mem hmem]
      exact ⟨s, drop_of_notMem h hmem hfuel, h, fun hm => absurd hm hmem, .refl _ _⟩
  find cnd fuel hfuel := find_eq h cnd hfuel
  forEach links function m fuel hframe hlinks hfuel := forEach_eq hframe (hlinks ▸ h.chain) hfuel
  split pred fuel hfuel := split_represents h pred hfuel

/-- The links of two elements, the second behind the first. -/
def pairLinks : Nat → Option Nat := Function.update (fun _ => none) 0 (some 1)

/-- A list of two elements. -/
theorem macros_actAsSequence_pair : (IotcList.mk pairLinks (some 0)).ActAsSequence [0, 1] :=
  macros_actAsSequence (.of_chain ⟨rfl, rfl, rfl⟩)

/-- The empty list cannot be popped. An element that is in the list, or whose link leads into it, closes
a cycle when it is pushed to the end. And a split into a list of two elements loses one of them. -/
theorem macros_fail :
    ((IotcList.mk (fun _ => none) none : IotcList Nat).Represents [] ∧
      (IotcList.mk (fun _ => none) none : IotcList Nat).pop = none) ∧
    ((IotcList.mk pairLinks (some 1)).Represents [1] ∧
      ∃ s', (IotcList.mk pairLinks (some 1)).pushBack 2 0 = some s' ∧ ∀ l, ¬s'.Represents l) ∧
    ((IotcList.mk pairLinks (some 0)).Represents [0, 1] ∧
      ∃ s', (IotcList.mk pairLinks (some 0)).pushBack 3 0 = some s' ∧ ∀ l, ¬s'.Represents l) ∧
    ((IotcList.mk pairLinks (some 2)).Represents [2] ∧
      ∃ s', (IotcList.mk pairLinks (some 2)).split 2 (fun _ _ => 1) (some 0) = some (s', some 0) ∧
        (IotcList.mk s'.next (some 0)).Represents [0, 2]) := by
  have hcycle : ∀ {s : IotcList Nat} {a : Nat}, s.list = some a → a < 2 →
      (∀ b, b < 2 → s.next b = some (1 - b)) → ∀ l, ¬s.Represents l := by
    intro s a hlist ha hnext l h
    have hclosed : ∀ b, b < 2 → ∃ c, s.next b = some c ∧ c < 2 :=
      fun b hb => ⟨1 - b, hnext b hb, by omega⟩
    exact not_chain_of_closed hclosed ha (hlist ▸ h.chain)
  refine ⟨⟨.of_chain rfl, rfl⟩, ⟨.of_chain ⟨rfl, rfl⟩, _, rfl, hcycle rfl (by decide) ?_⟩,
    ⟨.of_chain ⟨rfl, rfl, rfl⟩, _, rfl, hcycle rfl (by decide) ?_⟩,
    .of_chain ⟨rfl, rfl⟩, _, rfl, .of_chain ⟨rfl, rfl, rfl⟩⟩
  · decide
  · decide

end IotcList

end IotDeviceSdk.Datastructures
