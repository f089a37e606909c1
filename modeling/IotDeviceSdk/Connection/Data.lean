import IotDeviceSdk.Mqtt.Logic.Data

/-!
# The connection data (`iotc_connection_data.c`, `iotc_connect_to`)

`iotc_connect_to` makes the connection data of a context with its first connection, and updates them in
place with each later one. The update compares each string with the old one, and frees and duplicates
it if they differ.

A string of the record is `none` where it is `NULL`. `strcmp` of `NULL` has no result. The answers of
the allocator are those for each string, since none is duplicated twice.
-/

namespace IotDeviceSdk.Connection

open Mqtt.Logic

/-! ## The record -/

/-- `iotc_connection_data_t` -/
structure Data extends ConnectionData where
  host : Option Bytes := none
  port : UInt16 := 0
  deriving DecidableEq, Repr

/-- The strings. -/
inductive Field where
  | host
  | username
  | password
  | clientId
  | willTopic
  | willMessage
  deriving DecidableEq, Repr

/-- The order in which they are duplicated. -/
def fields : List Field := [.host, .username, .password, .clientId, .willTopic, .willMessage]

namespace Data

def string (d : Data) : Field → Option Bytes
  | .host => d.host
  | .username => d.username
  | .password => d.password
  | .clientId => d.clientId
  | .willTopic => d.willTopic
  | .willMessage => d.willMessage

def setString (d : Data) (s : Option Bytes) : Field → Data
  | .host => { d with host := s }
  | .username => { d with username := s }
  | .password => { d with password := s }
  | .clientId => { d with clientId := s }
  | .willTopic => { d with willTopic := s }
  | .willMessage => { d with willMessage := s }

/-- What follows the strings in both functions. -/
def setNumbers (d new : Data) : Data :=
  { d with
    port := new.port
    connectionTimeout := new.connectionTimeout
    keepaliveTimeout := new.keepaliveTimeout
    sessionType := new.sessionType
    willQos := new.willQos
    willRetain := new.willRetain }

/-- `conn_data->connection_state = IOTC_CONNECTION_STATE_UNINITIALIZED` -/
def resetState (d : Data) : Data := { d with connectionState := .uninitialized }

@[simp] theorem string_setString_self (d : Data) (s : Option Bytes) (f : Field) :
    (d.setString s f).string f = s := by
  cases f <;> rfl

theorem string_setString_ne (d : Data) (s : Option Bytes) {f g : Field} (h : g ≠ f) :
    (d.setString s f).string g = d.string g := by
  cases f <;> cases g <;> first | rfl | exact absurd rfl h

theorem mem_fields (f : Field) : f ∈ fields := by
  cases f <;> decide

/-- A record has its strings and its numbers, and the state of the connection. -/
theorem resetState_setNumbers {d new : Data} (h : ∀ f, d.string f = new.string f) :
    (d.setNumbers new).resetState = new.resetState := by
  have hhost : d.host = new.host := h .host
  have husername : d.username = new.username := h .username
  have hpassword : d.password = new.password := h .password
  have hclientId : d.clientId = new.clientId := h .clientId
  have hwillTopic : d.willTopic = new.willTopic := h .willTopic
  have hwillMessage : d.willMessage = new.willMessage := h .willMessage
  simp only [setNumbers, resetState, hhost, husername, hpassword, hclientId, hwillTopic, hwillMessage]

theorem string_resetState_setNumbers (d new : Data) (f : Field) :
    ((d.setNumbers new).resetState).string f = d.string f := by
  cases f <;> rfl

theorem string_resetState (d : Data) (f : Field) : d.resetState.string f = d.string f := by
  cases f <;> rfl

end Data

/-! ## The two functions -/

/-- The strings of new connection data. `false` is the error exit. -/
def dupStrings (new : Data) (dup : Field → Bool) : List Field → Data → Data × Bool
  | [], ret => (ret, true)
  | f :: fs, ret =>
    match new.string f with
    | none => dupStrings new dup fs ret
    | some s => if dup f then dupStrings new dup fs (ret.setString (some s) f) else (ret, false)

/-- `iotc_alloc_connection_data_lastwill`, with the arguments as a record. `mem` is the answer for the
record itself, `dup` those for the strings. -/
def allocConnectionDataLastwill (new : Data) (mem : Bool) (dup : Field → Bool) : Option Data :=
  if mem then
    match dupStrings new dup fields {} with
    | (ret, true) => some (ret.setNumbers new)
    | (_, false) => none
  else none

/-- The strings of an update. `false` is the error exit. -/
def updateStrings (new : Data) (dup : Field → Bool) : List Field → Data → Option (Data × Bool)
  | [], connData => some (connData, true)
  | f :: fs, connData =>
    match new.string f, connData.string f with
    | none, _ => updateStrings new dup fs connData
    | some _, none => none
    | some s, some old =>
      if s = old then updateStrings new dup fs connData
      else if dup f then updateStrings new dup fs (connData.setString (some s) f)
      else some (connData.setString none f, false)

/-- `iotc_connection_data_update_lastwill`, with the arguments as a record. -/
def updateLastwill (connData new : Data) (dup : Field → Bool) : Option (Data × IotcState) :=
  match updateStrings new dup fields connData with
  | none => none
  | some (connData, true) => some (connData.setNumbers new, .ok)
  | some (connData, false) => some (connData, .outOfMemory)

/-- The two branches of `iotc_connect_to`: the connection data, and whether the connection is
scheduled. -/
def branch (connectionData : Option Data) (new : Data) (mem : Bool) (dup : Field → Bool) :
    Option (Option Data × Bool) :=
  match connectionData with
  | some connData => do
    let (connData, state) ← updateLastwill connData new dup
    if state = .ok then some (some connData.resetState, true) else some (some connData, false)
  | none =>
    match allocConnectionDataLastwill new mem dup with
    | some ret => some (some ret.resetState, true)
    | none => some (none, false)

/-- `iotc->context_data`, with the fields of a connection; `connectHandler` is whether the connection is
scheduled. -/
structure ContextData where
  connectionData : Option Data
  connectHandler : Bool
  deriving DecidableEq, Repr

/-- `IOTC_ALREADY_INITIALIZED` -/
def alreadyInitialized : IotcState := .other 43

/-- `IOTC_NULL_CONTEXT` -/
def nullContext : IotcState := .other 52

/-- `IOTC_NULL_HOST` -/
def nullHost : IotcState := .other 61

/-- What `iotc_connect_to` asks for. -/
def requested (host : Option Bytes) (port : UInt16) (username password clientId : Option Bytes)
    (connectionTimeout keepaliveTimeout : UInt16) : Data where
  host := host
  port := port
  username := some (username.getD [])
  password := password
  clientId := clientId
  connectionTimeout := connectionTimeout.toNat
  keepaliveTimeout := keepaliveTimeout.toNat
  sessionType := .clean

/-- `iotc_connect_to`. `iotc` is the context of the handle, and `executeIn` what `iotc_evtd_execute_in`
returns. An update that fails does not set the state that is returned. -/
def connectTo (iotc : Option ContextData) (host : Option Bytes) (port : UInt16)
    (username password clientId : Option Bytes) (connectionTimeout keepaliveTimeout : UInt16)
    (mem : Bool) (dup : Field → Bool) (executeIn : IotcState) :
    Option (Option ContextData × IotcState) :=
  if host = none then some (iotc, nullHost)
  else if clientId = none then some (iotc, .nullClientIdError)
  else
    match iotc with
    | none => some (none, nullContext)
    | some iotc =>
      if iotc.connectHandler then some (some iotc, alreadyInitialized)
      else if iotc.connectionData.any fun d => !d.connectionState.final then
        some (some iotc, alreadyInitialized)
      else do
        let new := requested host port username password clientId connectionTimeout keepaliveTimeout
        let (connectionData, scheduled) ← branch iotc.connectionData new mem dup
        let state := if iotc.connectionData.isSome then .ok else .outOfMemory
        if scheduled then
          some (some { iotc with connectionData, connectHandler := executeIn = .ok }, executeIn)
        else some (some { iotc with connectionData }, state)

/-! ## What is claimed -/

/-- **What is claimed of an update in place**: the data that are scheduled are those of a new record, and
without memory they are as they were. -/
def Agrees (old new : Data) (dup : Field → Bool) : Prop :=
  ∃ d scheduled, branch (some old) new true dup = some (some d, scheduled) ∧
    (scheduled = true → branch none new true (fun _ => true) = some (some d, true)) ∧
    (scheduled = false → d = old)

/-- **The condition**: the strings that are given are those that the old data have, and there is memory for
each one that differs. -/
def Updatable (old new : Data) (dup : Field → Bool) : Prop :=
  ∀ f, (new.string f).isSome = (old.string f).isSome ∧ (new.string f = old.string f ∨ dup f = true)

/-! ## A new record -/

/-- With memory, each string that is given is in the record. -/
theorem dupStrings_string (new : Data) (fs : List Field) (ret : Data) :
    ∃ ret', dupStrings new (fun _ => true) fs ret = (ret', true) ∧
      ∀ f, ret'.string f = if f ∈ fs ∧ (new.string f).isSome = true then new.string f
        else ret.string f := by
  induction fs generalizing ret with
  | nil => exact ⟨ret, rfl, fun f => by simp⟩
  | cons f fs ih =>
    unfold dupStrings
    cases hs : new.string f with
    | none =>
      obtain ⟨ret', hdup, hret'⟩ := ih ret
      refine ⟨ret', hdup, fun g => (hret' g).trans ?_⟩
      by_cases hg : g = f
      · simp [hg, hs]
      · simp [hg]
    | some s =>
      obtain ⟨ret', hdup, hret'⟩ := ih (ret.setString (some s) f)
      refine ⟨ret', hdup, fun g => (hret' g).trans ?_⟩
      by_cases hg : g = f
      · simp [hg, hs]
      · simp [hg, Data.string_setString_ne _ _ hg]

/-- **A new record is that of the arguments.** -/
theorem branch_none (new : Data) :
    branch none new true (fun _ => true) = some (some new.resetState, true) := by
  obtain ⟨ret, hdup, hret⟩ := dupStrings_string new fields {}
  have hstring (f : Field) : ret.string f = new.string f := by
    rw [hret f]
    split
    · rfl
    · next hno =>
      have hnone : (new.string f).isSome ≠ true := fun h => hno ⟨Data.mem_fields f, h⟩
      rw [Option.not_isSome_iff_eq_none.mp hnone]
      cases f <;> rfl
  have halloc : allocConnectionDataLastwill new true (fun _ => true) = some (ret.setNumbers new) := by
    unfold allocConnectionDataLastwill
    rw [if_pos rfl, hdup]
  simp only [branch, halloc, Data.resetState_setNumbers hstring]

/-! ## An update -/

variable {old new d d' : Data} {dup : Field → Bool}

/-- A string that has been duplicated keeps the condition. -/
theorem Updatable.setString (h : Updatable d new dup) {f : Field} {s : Bytes}
    (hs : new.string f = some s) : Updatable (d.setString (some s) f) new dup := by
  intro g
  by_cases hg : g = f
  · rw [hg, Data.string_setString_self, hs]
    exact ⟨rfl, .inl rfl⟩
  · rw [Data.string_setString_ne _ _ hg]
    exact h g

/-- **Under the condition each string becomes that of the arguments.** -/
theorem Updatable.updateStrings (h : Updatable d new dup) (fs : List Field) :
    ∃ d', updateStrings new dup fs d = some (d', true) ∧
      ∀ f, f ∈ fs ∨ d.string f = new.string f → d'.string f = new.string f := by
  induction fs generalizing d with
  | nil =>
    exact ⟨d, rfl, fun f hf => hf.resolve_left (by simp)⟩
  | cons f fs ih =>
    obtain ⟨hpresent, hmem⟩ := h f
    unfold Connection.updateStrings
    cases hs : new.string f with
    | none =>
      rw [hs] at hpresent
      have hold : d.string f = none :=
        Option.isNone_iff_eq_none.mp (Option.isSome_eq_false_iff.mp hpresent.symm)
      obtain ⟨d', hd', hstring⟩ := ih h
      refine ⟨d', hd', fun g hg => hstring g ?_⟩
      by_cases hgf : g = f
      · exact .inr (by rw [hgf, hold, hs])
      · exact hg.imp_left fun hmem => (List.mem_cons.mp hmem).resolve_left hgf
    | some s =>
      rw [hs] at hpresent
      obtain ⟨t, ht⟩ := Option.isSome_iff_exists.mp hpresent.symm
      simp only [ht]
      by_cases hst : s = t
      · rw [if_pos hst]
        obtain ⟨d', hd', hstring⟩ := ih h
        refine ⟨d', hd', fun g hg => hstring g ?_⟩
        by_cases hgf : g = f
        · exact .inr (by rw [hgf, ht, hs, hst])
        · exact hg.imp_left fun hmem => (List.mem_cons.mp hmem).resolve_left hgf
      · have hdup : dup f = true := by
          refine hmem.resolve_left fun heq => hst ?_
          rw [hs, ht] at heq
          exact Option.some.inj heq
        rw [if_neg hst, if_pos hdup]
        obtain ⟨d', hd', hstring⟩ := ih (h.setString hs)
        refine ⟨d', hd', fun g hg => hstring g ?_⟩
        by_cases hgf : g = f
        · exact .inr (by rw [hgf, Data.string_setString_self, hs])
        · rw [Data.string_setString_ne _ _ hgf]
          exact hg.imp_left fun hmem => (List.mem_cons.mp hmem).resolve_left hgf

/-- What an update that has reached its end tells about the strings before. -/
theorem updateStrings_ok {fs : List Field} (h : updateStrings new dup fs d = some (d', true)) (g : Field) :
    (new.string g = none → d'.string g = d.string g) ∧
      (g ∈ fs → (new.string g).isSome = true →
        (d.string g).isSome = true ∧ (new.string g = d.string g ∨ dup g = true)) := by
  induction fs generalizing d with
  | nil =>
    obtain ⟨rfl, -⟩ := Prod.mk.inj (Option.some.inj h)
    exact ⟨fun _ => rfl, fun hmem => by cases hmem⟩
  | cons f fs ih =>
    unfold updateStrings at h
    split at h
    · next hs =>
      obtain ⟨hkept, hgiven⟩ := ih h
      refine ⟨hkept, fun hmem hsome => hgiven ?_ hsome⟩
      refine (List.mem_cons.mp hmem).resolve_left fun hgf => ?_
      rw [hgf, hs] at hsome
      cases hsome
    · cases h
    · next s t hs ht =>
      have hself (hgf : g = f) (heq : s = t ∨ dup f = true) :
          (d.string g).isSome = true ∧ (new.string g = d.string g ∨ dup g = true) := by
        rw [hgf, hs, ht]
        exact ⟨rfl, heq.imp_left (congrArg some)⟩
      split at h
      · next hst =>
        obtain ⟨hkept, hgiven⟩ := ih h
        refine ⟨hkept, fun hmem hsome => ?_⟩
        exact (List.mem_cons.mp hmem).elim (fun hgf => hself hgf (.inl hst)) (hgiven · hsome)
      · split at h
        · next hdup =>
          obtain ⟨hkept, hgiven⟩ := ih h
          by_cases hgf : g = f
          · refine ⟨fun hnone => ?_, fun _ _ => hself hgf (.inr hdup)⟩
            rw [hgf, hs] at hnone
            cases hnone
          · rw [Data.string_setString_ne _ _ hgf] at hkept hgiven
            exact ⟨hkept, fun hmem => hgiven ((List.mem_cons.mp hmem).resolve_left hgf)⟩
        · cases h

/-- **Without memory an old string is gone.** -/
theorem updateStrings_failed {fs : List Field} (h : updateStrings new dup fs d = some (d', false)) :
    ∃ f, (d.string f).isSome = true ∧ d'.string f = none := by
  induction fs generalizing d with
  | nil => cases h
  | cons f fs ih =>
    unfold updateStrings at h
    split at h
    · exact ih h
    · cases h
    · next s t hs ht =>
      split at h
      · exact ih h
      · split at h
        · obtain ⟨g, hsome, hnone⟩ := ih h
          refine ⟨g, ?_, hnone⟩
          by_cases hgf : g = f
          · rw [hgf, ht]
            rfl
          · rwa [Data.string_setString_ne _ _ hgf] at hsome
        · obtain ⟨rfl, -⟩ := Prod.mk.inj (Option.some.inj h)
          exact ⟨f, by rw [ht]; rfl, Data.string_setString_self ..⟩

/-! ## The two branches -/

theorem branch_some (old new : Data) (mem : Bool) (dup : Field → Bool) :
    branch (some old) new mem dup = (updateStrings new dup fields old).map fun r =>
      if r.2 then (some (r.1.setNumbers new).resetState, true) else (some r.1, false) := by
  cases h : updateStrings new dup fields old with
  | none => simp [branch, updateLastwill, h]
  | some r =>
    obtain ⟨d, ok⟩ := r
    cases ok <;> simp [branch, updateLastwill, h]

/-- **An update in place does what a new record would, if and only if the condition is met.** -/
theorem update_agrees_iff (old new : Data) (dup : Field → Bool) : Agrees old new dup ↔ Updatable old new dup := by
  constructor
  · rintro ⟨d, scheduled, hbranch, hok, hfailed⟩
    rw [branch_some] at hbranch
    cases hupdate : updateStrings new dup fields old with
    | none =>
      rw [hupdate] at hbranch
      cases hbranch
    | some r =>
      obtain ⟨d', ok⟩ := r
      rw [hupdate] at hbranch
      cases ok with
      | false =>
        -- the string that has been freed was there before
        obtain ⟨hd, rfl⟩ := Prod.mk.inj (Option.some.inj hbranch)
        obtain rfl : d' = d := Option.some.inj hd
        obtain ⟨f, hsome, hnone⟩ := updateStrings_failed hupdate
        rw [hfailed rfl] at hnone
        rw [hnone] at hsome
        cases hsome
      | true =>
        obtain ⟨hd, rfl⟩ := Prod.mk.inj (Option.some.inj hbranch)
        obtain rfl : (d'.setNumbers new).resetState = d := Option.some.inj hd
        have hfresh : new.resetState = (d'.setNumbers new).resetState := by
          have hnew := hok rfl
          rw [branch_none] at hnew
          exact Option.some.inj (Prod.mk.inj (Option.some.inj hnew)).1
        intro f
        obtain ⟨hkept, hgiven⟩ := updateStrings_ok hupdate f
        cases hs : new.string f with
        | none =>
          have hold : old.string f = none := by
            rw [← hkept hs, ← Data.string_resetState_setNumbers d' new f, ← hfresh,
              Data.string_resetState, hs]
          rw [hold]
          exact ⟨rfl, .inl rfl⟩
        | some s =>
          obtain ⟨hsome, hmem⟩ := hgiven (Data.mem_fields f) (by rw [hs]; rfl)
          rw [hs] at hmem
          exact ⟨hsome.symm, hmem⟩
  · intro h
    obtain ⟨d, hupdate, hstring⟩ := h.updateStrings fields
    have hstrings (f : Field) : d.string f = new.string f := hstring f (.inl (Data.mem_fields f))
    refine ⟨new.resetState, true, ?_, fun _ => branch_none new, fun hf => Bool.noConfusion hf⟩
    rw [branch_some, hupdate, Option.map_some, if_pos rfl, Data.resetState_setNumbers hstrings]

/-- The data of a client with a password. -/
def withPassword : Data :=
  { host := some [0x68], username := some [], password := some [0x70], clientId := some [0x63] }

/-- Another password, and memory for it. -/
theorem update_agrees_iff_password :
    Agrees withPassword { withPassword with password := some [0x71] } (fun _ => true) :=
  (update_agrees_iff withPassword { withPassword with password := some [0x71] } fun _ => true).mpr fun f =>
    ⟨by cases f <;> rfl, .inr rfl⟩

/-- **No password for the next connection**: the old one is kept, though there is memory for all. -/
theorem update_agrees_iff_fails :
    branch (some withPassword) { withPassword with password := none } true (fun _ => true) =
        some (some withPassword, true) ∧
      branch none { withPassword with password := none } true (fun _ => true) =
        some (some { withPassword with password := none }, true) ∧
      ¬Agrees withPassword { withPassword with password := none } (fun _ => true) := by
  refine ⟨rfl, rfl, ?_⟩
  rintro ⟨d, scheduled, hbranch, hok, -⟩
  obtain ⟨hd, rfl⟩ := Prod.mk.inj (Option.some.inj hbranch)
  obtain rfl : withPassword = d := Option.some.inj hd
  have hfresh := Prod.mk.inj (Option.some.inj (hok rfl))
  exact absurd (Option.some.inj hfresh.1) (by decide)

/-- **An update that fails is not reported.** `iotc_connect_to` returns `IOTC_STATE_OK`, and no connection
is scheduled. -/
theorem connectTo_not_scheduled {d : Data} (hfinal : d.connectionState.final = true) (host : Bytes)
    (port : UInt16) (username password : Option Bytes) (clientId : Bytes)
    (connectionTimeout keepaliveTimeout : UInt16) (mem : Bool) (executeIn : IotcState)
    (hfails : updateLastwill d (requested (some host) port username password (some clientId)
      connectionTimeout keepaliveTimeout) dup = some (d', .outOfMemory)) :
    connectTo (some ⟨some d, false⟩) (some host) port username password (some clientId)
      connectionTimeout keepaliveTimeout mem dup executeIn = some (some ⟨some d', false⟩, .ok) := by
  simp [connectTo, branch, hfinal, hfails]

end IotDeviceSdk.Connection
