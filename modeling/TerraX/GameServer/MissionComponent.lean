import Mathlib.Data.Multiset.MapFold
import TerraX.Base.Container
import TerraX.Lib.Run

/-!
# Missions

The missions of an avatar, in a container of owned items. A removal leaves the item of the last
slot owned behind the live ones. In a release build that changes nothing that a caller sees: the
live missions are a multiset. In a debug build the next mission fails an assertion.

## Main definitions

- `MissionDB.createMission`, `MissionDB.removeMission`, `MissionDB.getMission`
- `missions` — runs of calls, with the addresses that `new` returns
- `MissionDB.Tight` — the slots in use are those that own a mission
- `MissionCall.SparesLast` — a call that does not remove the mission of the last slot in use
- `MissionDB.live` — the live missions with their addresses

## Main results

- `slots_tight_iff` — the runs in which the slots in use are those that own a mission
- `missions_multiset` — what the functions do to the live missions in a release build
-/

namespace TerraX

open Memory Owner

/-- `MissionItem`. -/
structure MissionItem where
  missionID : ℤ := 0
deriving DecidableEq, Repr

/-- `MissionItem::SetMissionID`. -/
def MissionItem.setMissionID (item : MissionItem) (nMissionID : ℤ) : MissionItem :=
  { item with missionID := nMissionID }

/-- `MAX_MISSION_COUNT`. -/
def maxMissionCount : ℕ := 256

/-- `MissionDB`, which is its container. -/
abbrev MissionDB := Container MissionItem

namespace MissionDB

/-- `MissionDB::CreateMission`, where `new` returns the address `p`. -/
def createMission (build : Build) (db : MissionDB) (nMissionID : ℤ) (p : ℕ) :
    Except HeapFault (Option ℕ × MissionDB) :=
  if maxMissionCount ≤ db.curSize then .ok (none, db)
  else do
    let item := ({} : MissionItem).setMissionID nMissionID
    let db ← Container.push build { db with items := db.items.allocate p item } (some p)
    .ok (some p, db)

/-- `pItem->GetMissionID() == nMissionID`. -/
def hasMissionID (db : MissionDB) (nMissionID : ℤ) (pItem : Option ℕ) : Except HeapFault Bool := do
  let item ← db.items.deref pItem
  .ok (item.missionID == nMissionID)

/-- `MissionDB::RemoveMission`. -/
def removeMission (db : MissionDB) (nMissionID : ℤ) : Except HeapFault MissionDB := do
  match ← Container.search db (hasMissionID db nMissionID) {} 0 with
  | some (nIndex, _) => Container.removeAt db nIndex
  | none => .ok db

/-- `MissionDB::GetMission`. -/
def getMission (db : MissionDB) (nMissionID : ℤ) : Except HeapFault (Option ℕ) := do
  match ← Container.search db (hasMissionID db nMissionID) {} 0 with
  | some (_, pItem) => .ok pItem
  | none => .ok none

end MissionDB

/-- A call, with the address that `new` returns. -/
inductive MissionCall
  | createMission (nMissionID : ℤ) (p : ℕ)
  | removeMission (nMissionID : ℤ)
  | getMission (nMissionID : ℤ)
  | remove (pItem : Option ℕ)
  | removeAt (nIndex : ℤ)
deriving DecidableEq, Repr

namespace MissionCall

/-- What a call does to the missions. -/
def apply (build : Build) (db : MissionDB) : MissionCall → Except HeapFault MissionDB
  | createMission nMissionID p => do
    let (_, db) ← MissionDB.createMission build db nMissionID p
    .ok db
  | removeMission nMissionID => MissionDB.removeMission db nMissionID
  | getMission nMissionID => do
    let _ ← MissionDB.getMission db nMissionID
    .ok db
  | remove pItem => Container.remove db pItem
  | removeAt nIndex => Container.removeAt db nIndex

/-- `new` returns an address where nothing lives. -/
def Fresh (db : MissionDB) : MissionCall → Prop
  | createMission _ p => db.items.heap p = none
  | _ => True

/-- The slot in use whose mission a call asks to remove. -/
def target (db : MissionDB) : MissionCall → Option ℕ
  | removeMission nMissionID =>
    (db.items.slots.take db.curSize).findIdx? fun slot =>
      slot.any fun p => (db.items.heap p).any fun item => item.missionID == nMissionID
  | remove pItem => (db.items.slots.take db.curSize).findIdx? (· == pItem)
  | removeAt nIndex => if 0 ≤ nIndex ∧ nIndex < db.curSize then some nIndex.toNat else none
  | createMission _ _ | getMission _ => none

/-- The call does not remove the mission of the last slot in use. -/
def SparesLast (db : MissionDB) (call : MissionCall) : Prop :=
  ∀ i, call.target db = some i → i + 1 ≠ db.curSize

end MissionCall

/-- Runs of calls, from the empty container. -/
def missions (build : Build) : Run.System MissionDB MissionCall HeapFault where
  init := Container.new maxMissionCount
  enabled := MissionCall.Fresh
  step db call := call.apply build db

namespace MissionDB

/-- The slots in use are those that own a mission, and no other mission lives. -/
structure Tight (db : MissionDB) : Prop where
  used : ∀ slot ∈ db.items.slots.take db.curSize, slot ≠ none
  unused : ∀ slot ∈ db.items.slots.drop db.curSize, slot = none
  released : ∀ p, db.items.heap p ≠ none → some p ∈ db.items.slots.take db.curSize

/-- The live missions, with their addresses. -/
def live (db : MissionDB) : Multiset (ℕ × MissionItem) :=
  ((db.items.slots.take db.curSize).filterMap fun slot =>
    slot.bind fun p => (db.items.heap p).map fun item => (p, item) : List (ℕ × MissionItem))

/-- The live missions and what is left behind them take all slots. -/
structure Stored (db : MissionDB) (live : List ℕ) (rest : List (Option ℕ)) : Prop where
  holds : db.Holds live rest
  total : live.length + rest.length = maxMissionCount

theorem new_stored :
    Stored (Container.new maxMissionCount) [] (List.replicate maxMissionCount none) :=
  ⟨Container.new_holds _, by simp⟩

namespace Stored

variable {db : MissionDB} {live : List ℕ} {rest : List (Option ℕ)} (h : Stored db live rest)
include h

theorem take_slots : db.items.slots.take db.curSize = live.map some := by
  rw [h.holds.slots, h.holds.size, List.take_left' (by simp)]

theorem drop_slots : db.items.slots.drop db.curSize = rest := by
  rw [h.holds.slots, h.holds.size, List.drop_left' (by simp)]

/-- The slots in use are those that own a mission exactly if nothing is left behind them. -/
theorem tight_iff : db.Tight ↔ ∀ slot ∈ rest, slot = none := by
  constructor
  · intro htight
    rw [← h.drop_slots]
    exact htight.unused
  · intro hrest
    refine ⟨?_, by rwa [h.drop_slots], ?_⟩
    · rw [h.take_slots]
      simp
    · intro p hp
      obtain ⟨i, hi⟩ := (h.holds.unique.owned p).mp hp
      have hmem : some p ∈ live.map some ++ rest := h.holds.slots ▸ List.mem_of_getElem? hi
      rw [h.take_slots]
      refine (List.mem_append.mp hmem).resolve_right fun hleft => ?_
      cases hrest _ hleft

/-! ### One call -/

theorem createMission_full (build : Build) (nMissionID : ℤ) (p : ℕ)
    (hfull : live.length = maxMissionCount) :
    createMission build db nMissionID p = .ok (none, db) := by
  rw [createMission, h.holds.size, if_pos hfull.ge]

/-- A new mission takes the first slot behind the live ones. -/
theorem createMission_room (build : Build) (nMissionID : ℤ) {p : ℕ}
    (hroom : live.length < maxMissionCount) (hp : db.items.heap p = none)
    (hdebug : build = .debug → ∀ slot ∈ rest, slot = none) :
    ∃ db' old left, rest = old :: left ∧ createMission build db nMissionID p = .ok (some p, db') ∧
      Stored db' (live ++ [p]) left ∧
      db'.items.heap = Owners.freed (db.items.allocate p ⟨nMissionID⟩).heap old := by
  have htotal := h.total
  obtain ⟨old, left, hrest⟩ := List.exists_cons_of_length_pos (l := rest) (by omega)
  have hold : build = .debug → old = none := fun hbuild => hdebug hbuild old (by simp [hrest])
  obtain ⟨db', hpush, hholds, hheap⟩ := h.holds.push_fresh (a := ⟨nMissionID⟩) hrest hp hold
  refine ⟨db', old, left, hrest, ?_, ⟨hholds, ?_⟩, hheap⟩
  · have hsize : ¬ maxMissionCount ≤ db.curSize := by
      rw [h.holds.size]
      omega
    rw [createMission, if_neg hsize]
    simp only [MissionItem.setMissionID, hpush, bind_ok]
  · rw [hrest, List.length_cons] at htotal
    rw [List.length_append, List.length_singleton]
    omega

/-- A new mission leaves the live ones as they are. -/
theorem heap_created {p q : ℕ} {item : MissionItem} {old : Option ℕ} {left : List (Option ℕ)}
    {heap : ℕ → Option MissionItem} (hrest : rest = old :: left) (hp : db.items.heap p = none)
    (hheap : heap = Owners.freed (db.items.allocate p item).heap old) (hq : q ∈ live) :
    heap q = db.items.heap q := by
  have hold : old ≠ some q := by
    rintro rfl
    exact h.holds.not_mem_live (hrest ▸ List.mem_cons_self) hq
  have hne : q ≠ p := by
    rintro rfl
    exact h.holds.heap_live hq hp
  rw [hheap, Owners.freed_eq_of_ne hold, Owners.allocate_heap, Function.update_of_ne hne]

theorem heap_new {p : ℕ} {item : MissionItem} {old : Option ℕ} {left : List (Option ℕ)}
    {heap : ℕ → Option MissionItem} (hrest : rest = old :: left) (hp : db.items.heap p = none)
    (hheap : heap = Owners.freed (db.items.allocate p item).heap old) : heap p = some item := by
  have hold : old ≠ some p := by
    rintro rfl
    have hslot := h.holds.slot_rest (i := 0) (by rw [hrest]; rfl)
    exact h.holds.unique.owned_of_slot hslot hp
  rw [hheap, Owners.freed_eq_of_ne hold, Owners.allocate_heap, Function.update_self]

/-- In a debug build a new mission fails an assertion where something was left. -/
theorem createMission_leftover (nMissionID : ℤ) (p : ℕ) {q : ℕ} {left : List (Option ℕ)}
    (hrest : rest = some q :: left) :
    createMission .debug db nMissionID p = .error (.memory .assertFailed) := by
  have hsize : ¬ maxMissionCount ≤ db.curSize := by
    have htotal := h.total
    rw [hrest, List.length_cons] at htotal
    rw [h.holds.size]
    omega
  have hpush := h.holds.push_leftover hrest (db.items.allocate p ⟨nMissionID⟩) rfl (some p)
  rw [createMission, if_neg hsize]
  simp only [MissionItem.setMissionID, hpush, bind_error]

theorem hasMissionID_live (nMissionID : ℤ) {p : ℕ} (hp : p ∈ live) :
    hasMissionID db nMissionID (some p) =
      .ok ((db.items.heap p).any fun item => item.missionID == nMissionID) := by
  obtain ⟨item, hitem⟩ := Option.ne_none_iff_exists'.mp (h.holds.heap_live hp)
  rw [hasMissionID, Owners.deref_eq hitem, hitem]
  rfl

theorem search_hasMissionID (nMissionID : ℤ) :
    Container.search db (hasMissionID db nMissionID) {} 0 =
      .ok (((MissionCall.removeMission nMissionID).target db).map fun i => (i, live[i]?)) := by
  rw [h.holds.search_eq fun p hp => h.hasMissionID_live nMissionID hp, MissionCall.target,
    h.take_slots, List.findIdx?_map]
  rfl

theorem search_pointer (pItem : Option ℕ) :
    Container.search db (fun p => .ok (p == pItem)) {} 0 =
      .ok (((MissionCall.remove pItem).target db).map fun i => (i, live[i]?)) := by
  rw [h.holds.search_eq fun _ _ => rfl, MissionCall.target, h.take_slots, List.findIdx?_map]
  rfl

theorem target_lt {call : MissionCall} {i : ℕ} (hi : call.target db = some i) :
    i < live.length := by
  cases call with
  | createMission => cases hi
  | getMission => cases hi
  | removeAt nIndex =>
    rw [MissionCall.target, h.holds.size, Option.ite_none_right_eq_some] at hi
    obtain ⟨hrange, ⟨⟩⟩ := hi
    omega
  | removeMission | remove =>
    rw [MissionCall.target, h.take_slots] at hi
    simpa using (List.findIdx?_eq_some_iff_getElem.mp hi).1

/-- Every other call removes the mission of its target, if it has one. -/
theorem apply_eq (build : Build) {call : MissionCall} (hcall : ∀ id p, call ≠ .createMission id p) :
    call.apply build db =
      match call.target db with
      | some i => Container.removeAt db i
      | none => .ok db := by
  cases call with
  | createMission id p => exact absurd rfl (hcall id p)
  | getMission id =>
    rw [MissionCall.apply, getMission, h.search_hasMissionID, bind_ok]
    cases (MissionCall.removeMission id).target db <;> rfl
  | removeMission id =>
    rw [MissionCall.apply, removeMission, h.search_hasMissionID, bind_ok]
    cases (MissionCall.removeMission id).target db <;> rfl
  | remove pItem =>
    rw [MissionCall.apply, Container.remove, h.search_pointer, bind_ok]
    cases (MissionCall.remove pItem).target db <;> rfl
  | removeAt nIndex =>
    rw [MissionCall.apply, MissionCall.target]
    split
    · rename_i i hi
      rw [Option.ite_none_right_eq_some] at hi
      obtain ⟨hrange, ⟨⟩⟩ := hi
      rw [Int.toNat_of_nonneg hrange.1]
    · rename_i hi
      rw [ite_eq_right_iff] at hi
      exact h.holds.removeAt_outside fun hrange => nomatch hi (h.holds.size ▸ hrange)

/-- A removal takes out its target. Unless that is the last slot in use, nothing is left behind. -/
theorem apply_target (build : Build) {call : MissionCall} {i : ℕ} (hi : call.target db = some i) :
    ∃ db' live' left, call.apply build db = .ok db' ∧ Stored db' live' (left :: rest) ∧
      live.Perm (live.get ⟨i, h.target_lt hi⟩ :: live') ∧
      (∀ p ∈ live', db'.items.heap p = db.items.heap p) ∧ (left = none ↔ i + 1 ≠ live.length) := by
  have hlt := h.target_lt hi
  obtain ⟨db', live', left, hremove, hholds, hperm, hheap, hleft⟩ := h.holds.removeAt_live hlt
  have hcall : ∀ id p, call ≠ .createMission id p := by
    rintro id p rfl
    cases hi
  refine ⟨db', live', left, ?_, ⟨hholds, ?_⟩, hperm, hheap, hleft⟩
  · rw [h.apply_eq build hcall, hi]
    exact hremove
  · have htotal := h.total
    have hlen := hperm.length_eq
    rw [List.length_cons] at hlen ⊢
    omega

/-- A call returns, unless it is a debug build and something was left behind the live missions.
It leaves something exactly if it removes the mission of the last slot in use. -/
theorem step (build : Build) {call : MissionCall} (hfresh : call.Fresh db)
    (hdebug : build = .debug → ∀ slot ∈ rest, slot = none) :
    ∃ db' live' rest', call.apply build db = .ok db' ∧ Stored db' live' rest' ∧
      ((∀ slot ∈ rest, slot = none) → ((∀ slot ∈ rest', slot = none) ↔ call.SparesLast db)) ∧
      ∀ p ∈ live, p ∈ live' → db'.items.heap p = db.items.heap p := by
  by_cases hcreate : ∃ id p, call = .createMission id p
  · obtain ⟨id, p, rfl⟩ := hcreate
    have hspares : (MissionCall.createMission id p).SparesLast db := fun i hi => nomatch hi
    by_cases hfull : live.length = maxMissionCount
    · refine ⟨db, live, rest, ?_, h, fun hrest => iff_of_true hrest hspares, fun _ _ _ => rfl⟩
      rw [MissionCall.apply, h.createMission_full build id p hfull]
      rfl
    · have htotal := h.total
      obtain ⟨db', old, left, hrest, heq, hstored, hheap⟩ :=
        h.createMission_room build id (by omega) hfresh hdebug
      refine ⟨db', _, left, ?_, hstored, fun hnone => iff_of_true ?_ hspares, fun q hq _ => ?_⟩
      · rw [MissionCall.apply, heq]
        rfl
      · exact fun slot hslot => hnone slot (hrest ▸ List.mem_cons_of_mem _ hslot)
      · exact h.heap_created hrest hfresh hheap hq
  · cases htarget : call.target db with
    | none =>
      refine ⟨db, live, rest, ?_, h, fun hrest => iff_of_true hrest fun i hi => ?_,
        fun _ _ _ => rfl⟩
      · rw [h.apply_eq build fun id p heq => hcreate ⟨id, p, heq⟩, htarget]
      · rw [htarget] at hi
        cases hi
    | some i =>
      obtain ⟨db', live', left, happly, hstored, -, hheap, hleft⟩ := h.apply_target build htarget
      refine ⟨db', live', _, happly, hstored, fun hrest => ?_, fun q _ => hheap q⟩
      rw [List.forall_mem_cons, and_iff_left hrest, hleft, MissionCall.SparesLast, htarget,
        h.holds.size]
      simp

/-! ### Live missions -/

/-- The live missions are the items of the live addresses. -/
theorem live_eq :
    db.live = (live : Multiset ℕ).map fun p => (p, (db.items.heap p).getD {}) := by
  rw [MissionDB.live, h.take_slots, List.filterMap_map, Multiset.map_coe]
  congr 1
  rw [← List.filterMap_eq_map]
  refine List.filterMap_congr fun p hp => ?_
  obtain ⟨item, hitem⟩ := Option.ne_none_iff_exists'.mp (h.holds.heap_live hp)
  simp [hitem]

theorem mem_live {p : ℕ} {item : MissionItem} :
    (p, item) ∈ db.live ↔ p ∈ live ∧ db.items.heap p = some item := by
  rw [h.live_eq, Multiset.mem_map]
  constructor
  · rintro ⟨q, hq, heq⟩
    cases heq
    obtain ⟨item, hitem⟩ := Option.ne_none_iff_exists'.mp (h.holds.heap_live hq)
    exact ⟨hq, by rw [hitem]; rfl⟩
  · rintro ⟨hp, hitem⟩
    exact ⟨p, hp, by rw [hitem]; rfl⟩

theorem card_live : db.live.card = live.length := by
  rw [h.live_eq, Multiset.card_map, Multiset.coe_card]

theorem map_fst_live : db.live.map Prod.fst = live := by
  rw [h.live_eq, Multiset.map_map]
  exact Multiset.map_id _

end Stored

end MissionDB

/-! ### Runs -/

open MissionDB

theorem runs_concat {build : Build} {calls : List MissionCall} {call : MissionCall} {db : MissionDB}
    {r : Except HeapFault MissionDB} (h : (missions build).Runs calls (.ok db))
    (hfresh : call.Fresh db) (hr : call.apply build db = r) :
    (missions build).Runs (calls ++ [call]) r := by
  subst hr
  exact .concat h hfresh

/-- The runs that spare the last slot in use leave nothing behind the live missions. -/
theorem stored_of_spares {build : Build} {calls : List MissionCall} {r : Except HeapFault MissionDB}
    (h : ((missions build).restrict fun db call => call.SparesLast db).Runs calls r) :
    ∃ db live rest, r = .ok db ∧ Stored db live rest ∧ (∀ slot ∈ rest, slot = none) ∧
      ((missions build).restrict fun db _ => db.Tight).Runs calls r := by
  induction h with
  | nil =>
    exact ⟨_, _, _, rfl, new_stored, fun slot hslot => (List.mem_replicate.mp hslot).2, .nil⟩
  | concat _ henabled ih =>
    obtain ⟨db, live, rest, hdb, hstored, hrest, hrun⟩ := ih
    cases hdb
    obtain ⟨db', live', rest', happly, hstored', hiff, -⟩ :=
      hstored.step build henabled.1 fun _ => hrest
    exact ⟨db', live', rest', happly, hstored', (hiff hrest).mpr henabled.2,
      hrun.concat ⟨henabled.1, hstored.tight_iff.mpr hrest⟩⟩

/-- The runs in which every state is tight spare the last slot in use. -/
theorem spares_of_tight {build : Build} {calls : List MissionCall} {r : Except HeapFault MissionDB}
    (h : ((missions build).restrict fun db _ => db.Tight).Runs calls r) :
    ∀ db, r = .ok db → db.Tight →
      ((missions build).restrict fun db call => call.SparesLast db).Runs calls r := by
  induction h with
  | nil => exact fun _ _ _ => .nil
  | concat _ henabled ih =>
    intro db' hdb' htight
    have hrun := ih _ rfl henabled.2
    obtain ⟨db, live, rest, hdb, hstored, hrest, -⟩ := stored_of_spares hrun
    cases hdb
    obtain ⟨db'', live', rest', happly, hstored', hiff, -⟩ :=
      hstored.step build henabled.1 fun _ => hrest
    cases happly.symm.trans hdb'
    exact hrun.concat ⟨henabled.1, (hiff hrest).mp (hstored'.tight_iff.mp htight)⟩

/-- In a run, every state is tight and no assertion fails exactly if no call removes the mission of
the last slot in use. -/
theorem slots_tight_iff {build : Build} {calls : List MissionCall}
    {r : Except HeapFault MissionDB} :
    (∃ db, r = .ok db ∧ db.Tight ∧ ((missions build).restrict fun db _ => db.Tight).Runs calls r) ↔
      ((missions build).restrict fun db call => call.SparesLast db).Runs calls r := by
  constructor
  · rintro ⟨db, hdb, htight, hrun⟩
    exact spares_of_tight hrun db hdb htight
  · intro hrun
    obtain ⟨db, live, rest, hdb, hstored, hrest, htight⟩ := stored_of_spares hrun
    exact ⟨db, hdb, hstored.tight_iff.mpr hrest, htight⟩

/-- The only mission is removed and stays owned; in a debug build no other one can follow it. -/
theorem last_mission_left :
    (∀ build, ∃ db, (missions build).Runs [.createMission 7 0, .removeMission 7] (.ok db) ∧
      ¬ db.Tight) ∧
    (missions .debug).Runs [.createMission 7 0, .removeMission 7, .createMission 8 1]
      (.error (.memory .assertFailed)) := by
  have hrun : ∀ build, ∃ db left,
      (missions build).Runs [.createMission 7 0, .removeMission 7] (.ok db) ∧
        Stored db [] (some 0 :: left) ∧ db.items.heap 1 = none := by
    intro build
    obtain ⟨db₁, old, left, hrest, hcreate, hstored, hheap⟩ :=
      new_stored.createMission_room build 7 (p := 0) (by decide) rfl
        fun _ slot hslot => (List.mem_replicate.mp hslot).2
    have hold : old = none :=
      (List.mem_replicate.mp (hrest ▸ List.mem_cons_self : old ∈ List.replicate 256 none)).2
    rw [hold, Owners.freed_none, Owners.allocate_heap] at hheap
    have htarget : (MissionCall.removeMission 7).target db₁ = some 0 := by
      rw [MissionCall.target, hstored.take_slots, hheap]
      rfl
    obtain ⟨db₂, hremove, hholds, hheap₂⟩ := hstored.holds.removeAt_last (show _ = [] ++ [0] from rfl)
    have hinit : createMission build (missions build).init 7 0 = .ok (some 0, db₁) := hcreate
    have hfirst : (MissionCall.createMission 7 0).apply build (missions build).init = .ok db₁ := by
      rw [MissionCall.apply, hinit]
      rfl
    have hsecond : (MissionCall.removeMission 7).apply build db₁ = .ok db₂ := by
      rw [hstored.apply_eq build (by simp), htarget]
      exact hremove
    refine ⟨db₂, left, ?_, ⟨hholds, ?_⟩, ?_⟩
    · have hone : (missions build).Runs [.createMission 7 0] (.ok db₁) := runs_concat .nil rfl hfirst
      exact runs_concat hone trivial hsecond
    · have htotal := hstored.total
      simp only [List.length_append, List.length_cons, List.length_nil] at htotal ⊢
      omega
    · rw [hheap₂, hheap]
      rfl
  constructor
  · intro build
    obtain ⟨db, left, hdb, hstored, -⟩ := hrun build
    refine ⟨db, hdb, fun htight => ?_⟩
    cases hstored.tight_iff.mp htight (some 0) List.mem_cons_self
  · obtain ⟨db, left, hdb, hstored, hfree⟩ := hrun .debug
    have hthird : (MissionCall.createMission 8 1).apply .debug db =
        .error (.memory .assertFailed) := by
      rw [MissionCall.apply, hstored.createMission_leftover 8 1 rfl]
      rfl
    exact runs_concat hdb hfree hthird

/-! ### Live missions in a release build -/

namespace MissionDB

/-- `CreateMission` adds one mission, or returns null and changes nothing if as many as possible
are live. -/
def CreatesOne (db : MissionDB) : Prop :=
  ∀ nMissionID p, db.items.heap p = none →
    if db.live.card = maxMissionCount then
      createMission .release db nMissionID p = .ok (none, db)
    else ∃ db', createMission .release db nMissionID p = .ok (some p, db') ∧
      db'.live = (p, ⟨nMissionID⟩) ::ₘ db.live

/-- Some live mission has the number. -/
def HasLive (db : MissionDB) (nMissionID : ℤ) : Prop :=
  ∃ mission ∈ db.live, mission.2.missionID = nMissionID

/-- `RemoveMission` removes one mission with the number if there is one, and nothing else. -/
def RemovesOne (db : MissionDB) : Prop :=
  ∀ nMissionID,
    (db.HasLive nMissionID → ∃ db' mission, removeMission db nMissionID = .ok db' ∧
      mission.2.missionID = nMissionID ∧ db.live = mission ::ₘ db'.live) ∧
    (¬ db.HasLive nMissionID → removeMission db nMissionID = .ok db)

/-- `GetMission` returns a live mission with the number, or null if there is none. -/
def GetsLive (db : MissionDB) : Prop :=
  ∀ nMissionID,
    (db.HasLive nMissionID → ∃ mission ∈ db.live, mission.2.missionID = nMissionID ∧
      getMission db nMissionID = .ok (some mission.1)) ∧
    (¬ db.HasLive nMissionID → getMission db nMissionID = .ok none)

/-- A whole iteration returns each live mission once. -/
def VisitsEach (db : MissionDB) : Prop :=
  ∃ visited : List ℕ, Container.visits db {} = .ok (visited.map some) ∧ visited.Nodup ∧
    (visited : Multiset ℕ) = db.live.map Prod.fst

/-- For as long as a mission is not removed, its pointer denotes it. -/
def KeepsPointers (db : MissionDB) : Prop :=
  ∀ nMissionID p db', db.items.heap p = none →
    createMission .release db nMissionID p = .ok (some p, db') → ∀ calls r,
    (({ missions .release with init := db' } : Run.System _ _ _).restrict fun db call =>
      ∀ db', call.apply .release db = .ok db' → p ∈ db'.live.map Prod.fst).Runs calls r →
    ∃ db'', r = .ok db'' ∧ db''.items.heap p = some ⟨nMissionID⟩ ∧ (p, ⟨nMissionID⟩) ∈ db''.live ∧
      ∀ id, MissionCall.createMission id p ∉ calls

namespace Stored

variable {db : MissionDB} {live : List ℕ} {rest : List (Option ℕ)} (h : Stored db live rest)
include h

theorem createsOne : db.CreatesOne := by
  intro nMissionID p hp
  rw [h.card_live]
  have htotal := h.total
  split
  · rename_i hfull
    exact h.createMission_full _ nMissionID p hfull
  · rename_i hroom
    obtain ⟨db', old, left, hrest, heq, hstored, hheap⟩ :=
      h.createMission_room .release nMissionID (by omega) hp (by simp)
    refine ⟨db', heq, ?_⟩
    have hsame : (live : Multiset ℕ).map (fun q => (q, (db'.items.heap q).getD {})) =
        (live : Multiset ℕ).map fun q => (q, (db.items.heap q).getD {}) :=
      Multiset.map_congr rfl fun q hq => by rw [h.heap_created hrest hp hheap hq]
    rw [hstored.live_eq, h.live_eq, Multiset.coe_eq_coe.mpr (List.perm_append_singleton p live),
      ← Multiset.cons_coe, Multiset.map_cons, hsame, h.heap_new hrest hp hheap]
    rfl

/-- A number that the call looks for is that of its target. -/
theorem target_eq_some {nMissionID : ℤ} {i : ℕ}
    (hi : (MissionCall.removeMission nMissionID).target db = some i) :
    ∃ item, db.items.heap (live.get ⟨i, h.target_lt hi⟩) = some item ∧
      item.missionID = nMissionID := by
  obtain ⟨item, hitem⟩ :=
    Option.ne_none_iff_exists'.mp (h.holds.heap_live (List.getElem_mem (h.target_lt hi)))
  refine ⟨item, hitem, ?_⟩
  rw [MissionCall.target, h.take_slots] at hi
  obtain ⟨_, htest, _⟩ := List.findIdx?_eq_some_iff_getElem.mp hi
  simpa [hitem] using htest

theorem target_eq_none {nMissionID : ℤ} :
    (MissionCall.removeMission nMissionID).target db = none ↔ ¬ db.HasLive nMissionID := by
  rw [MissionCall.target, h.take_slots, List.findIdx?_eq_none_iff, List.forall_mem_map]
  constructor
  · rintro hnone ⟨⟨p, item⟩, hmem, hid⟩
    obtain ⟨hp, hitem⟩ := h.mem_live.mp hmem
    simpa [hitem, show item.missionID = nMissionID from hid] using hnone p hp
  · intro hnot p hp
    obtain ⟨item, hitem⟩ := Option.ne_none_iff_exists'.mp (h.holds.heap_live hp)
    have hid : item.missionID ≠ nMissionID := fun hid =>
      hnot ⟨(p, item), h.mem_live.mpr ⟨hp, hitem⟩, hid⟩
    simpa [hitem] using hid

theorem removesOne : db.RemovesOne := by
  intro nMissionID
  rw [← h.target_eq_none]
  constructor
  · intro hlive
    obtain ⟨i, hi⟩ := Option.ne_none_iff_exists'.mp (mt h.target_eq_none.mp (not_not.mpr hlive))
    obtain ⟨item, hitem, hid⟩ := h.target_eq_some hi
    obtain ⟨db', live', left, happly, hstored, hperm, hheap, -⟩ := h.apply_target .release hi
    refine ⟨db', (live.get ⟨i, h.target_lt hi⟩, item), happly, hid, ?_⟩
    have hsame : (live' : Multiset ℕ).map (fun q => (q, (db'.items.heap q).getD {})) =
        (live' : Multiset ℕ).map fun q => (q, (db.items.heap q).getD {}) :=
      Multiset.map_congr rfl fun q hq => by rw [hheap q hq]
    rw [h.live_eq, hstored.live_eq, hsame, Multiset.coe_eq_coe.mpr hperm, ← Multiset.cons_coe,
      Multiset.map_cons, hitem]
    rfl
  · intro hnone
    have hremove : ∀ id p, MissionCall.removeMission nMissionID ≠ .createMission id p := by simp
    have happly := h.apply_eq .release hremove
    rw [hnone] at happly
    exact happly

theorem getsLive : db.GetsLive := by
  intro nMissionID
  rw [getMission, h.search_hasMissionID, bind_ok, ← h.target_eq_none]
  constructor
  · intro hlive
    obtain ⟨i, hi⟩ := Option.ne_none_iff_exists'.mp (mt h.target_eq_none.mp (not_not.mpr hlive))
    obtain ⟨item, hitem, hid⟩ := h.target_eq_some hi
    have hlt := h.target_lt hi
    refine ⟨(live[i], item), h.mem_live.mpr ⟨List.getElem_mem hlt, hitem⟩, hid, ?_⟩
    simp [hi, hlt]
  · intro hnone
    rw [hnone]
    rfl

theorem visitsEach : db.VisitsEach :=
  ⟨live, h.holds.visits_eq, h.holds.nodup, h.map_fst_live.symm⟩

end Stored

/-- In a release build every run returns. -/
theorem stored_of_runs {calls : List MissionCall} {r : Except HeapFault MissionDB}
    (h : (missions .release).Runs calls r) :
    ∃ db, r = .ok db ∧ ∃ live rest, Stored db live rest := by
  induction h with
  | nil => exact ⟨_, rfl, _, _, new_stored⟩
  | concat _ hfresh ih =>
    obtain ⟨db, hdb, live, rest, hstored⟩ := ih
    cases hdb
    obtain ⟨db', live', rest', happly, hstored', -⟩ := hstored.step .release hfresh (by simp)
    exact ⟨db', happly, live', rest', hstored'⟩

/-- After the calls the mission at the address is still the one with the number. -/
def Keeps (nMissionID : ℤ) (p : ℕ) (calls : List MissionCall) (db : MissionDB) : Prop :=
  ∃ live rest, Stored db live rest ∧ p ∈ live ∧ db.items.heap p = some ⟨nMissionID⟩ ∧
    ∀ id, MissionCall.createMission id p ∉ calls

/-- A call keeps the mission, unless it removes it. -/
theorem Keeps.step {nMissionID : ℤ} {p : ℕ} {calls : List MissionCall} {db : MissionDB}
    (h : Keeps nMissionID p calls db) {call : MissionCall} (hfresh : call.Fresh db)
    (hkeeps : ∀ db', call.apply .release db = .ok db' → p ∈ db'.live.map Prod.fst) :
    ∃ db', call.apply .release db = .ok db' ∧ Keeps nMissionID p (calls ++ [call]) db' := by
  obtain ⟨live, rest, hstored, hlive, hitem, hnot⟩ := h
  obtain ⟨db', live', rest', happly, hstored', -, hsame⟩ := hstored.step .release hfresh (by simp)
  have hlive' : p ∈ live' := by
    have hmem := hkeeps db' happly
    rwa [hstored'.map_fst_live] at hmem
  refine ⟨db', happly, live', rest', hstored', hlive', (hsame p hlive hlive').trans hitem, ?_⟩
  intro id hmem
  rcases List.mem_append.mp hmem with hmem | hmem
  · exact hnot id hmem
  · cases List.mem_singleton.mp hmem
    exact hstored.holds.heap_live hlive hfresh

theorem Stored.keepsPointers {db : MissionDB} {live : List ℕ} {rest : List (Option ℕ)}
    (h : Stored db live rest) : db.KeepsPointers := by
  intro nMissionID p db₁ hp hcreate calls r hrun
  have hroom : live.length < maxMissionCount := by
    refine Nat.lt_of_le_of_ne (by have htotal := h.total; omega) fun hfull => ?_
    rw [h.createMission_full _ nMissionID p hfull] at hcreate
    cases hcreate
  obtain ⟨db₂, old, left, hrest, heq, hstored₁, hheap⟩ :=
    h.createMission_room .release nMissionID hroom hp (by simp)
  obtain ⟨-, rfl⟩ := Prod.mk.inj (Except.ok.inj (heq.symm.trans hcreate))
  have hnew := h.heap_new hrest hp hheap
  have hstart : Keeps nMissionID p [] db₂ := ⟨_, _, hstored₁, by simp, hnew, by simp⟩
  obtain ⟨db, hr, live', rest', hstored, hlive, hitem, hnot⟩ :=
    Run.System.invariant hstart (fun _ _ _ hkept hcall => hkept.step hcall.1 hcall.2) hrun
  exact ⟨db, hr, hitem, hstored.mem_live.mpr ⟨hlive, hitem⟩, hnot⟩

end MissionDB

/-- In a release build the live missions are a multiset, whose numbers may repeat. -/
theorem missions_multiset {calls : List MissionCall} {r : Except HeapFault MissionDB}
    (h : (missions .release).Runs calls r) :
    ∃ db : MissionDB, r = .ok db ∧ db.live.card ≤ maxMissionCount ∧ db.CreatesOne ∧
      db.RemovesOne ∧ db.GetsLive ∧ db.VisitsEach ∧ db.KeepsPointers := by
  obtain ⟨db, hdb, live, rest, hstored⟩ := stored_of_runs h
  refine ⟨db, hdb, ?_, hstored.createsOne, hstored.removesOne, hstored.getsLive,
    hstored.visitsEach, hstored.keepsPointers⟩
  have htotal := hstored.total
  rw [hstored.card_live]
  omega

/-- A run that goes on with a mission at a new address. -/
theorem runs_createMission {calls : List MissionCall} {db : MissionDB} {live : List ℕ}
    {rest : List (Option ℕ)} (hrun : (missions .release).Runs calls (.ok db))
    (h : Stored db live rest) (hroom : live.length < maxMissionCount) (nMissionID : ℤ) {p : ℕ}
    (hp : db.items.heap p = none) :
    ∃ db' rest', (missions .release).Runs (calls ++ [.createMission nMissionID p]) (.ok db') ∧
      Stored db' (live ++ [p]) rest' ∧ db'.items.heap p = some ⟨nMissionID⟩ ∧
      (∀ q ∈ live, db'.items.heap q = db.items.heap q) ∧
      ∀ q, q ≠ p → db.items.heap q = none → db'.items.heap q = none := by
  obtain ⟨db', old, left, hrest, hcreate, hstored, hheap⟩ :=
    h.createMission_room .release nMissionID hroom hp (by simp)
  have happly : (MissionCall.createMission nMissionID p).apply .release db = .ok db' := by
    rw [MissionCall.apply, hcreate]
    rfl
  refine ⟨db', left, runs_concat hrun hp happly, hstored, h.heap_new hrest hp hheap,
    fun q hq => h.heap_created hrest hp hheap hq, fun q hqp hq => ?_⟩
  rw [hheap]
  refine Owners.freed_eq_none ?_
  rw [Owners.allocate_heap, Function.update_of_ne hqp, hq]

/-- Two missions with the number 7 and one behind them. The removal of a mission 7 moves the last
one into its slot, and the next mission takes the slot that this one has left. -/
theorem missions_multiset_moved :
    ∃ db : MissionDB, (missions .release).Runs [.createMission 7 0, .createMission 7 1,
        .createMission 8 2, .removeMission 7, .createMission 9 3] (.ok db) ∧
      db.items.slots.take db.curSize = [some 2, some 1, some 3] ∧
      db.live = {(2, ⟨8⟩), (1, ⟨7⟩), (3, ⟨9⟩)} ∧
      db.live.card ≤ maxMissionCount ∧ db.CreatesOne ∧ db.RemovesOne ∧ db.GetsLive ∧
      db.VisitsEach ∧ db.KeepsPointers := by
  obtain ⟨db₁, _, hrun₁, hstored₁, hfirst₁, -, hnone₁⟩ :=
    runs_createMission .nil new_stored (by decide) 7 (p := 0) rfl
  obtain ⟨db₂, _, hrun₂, hstored₂, hsecond₂, hkept₂, hnone₂⟩ :=
    runs_createMission hrun₁ hstored₁ (by decide) 7 (hnone₁ 1 (by decide) rfl)
  obtain ⟨db₃, _, hrun₃, hstored₃, hthird₃, hkept₃, hnone₃⟩ :=
    runs_createMission hrun₂ hstored₂ (by decide) 8
      (hnone₂ 2 (by decide) (hnone₁ 2 (by decide) rfl))
  have hfirst₃ : db₃.items.heap 0 = some ⟨7⟩ := by
    rw [hkept₃ 0 (by simp), hkept₂ 0 (by simp), hfirst₁]
  have hsecond₃ : db₃.items.heap 1 = some ⟨7⟩ := by
    rw [hkept₃ 1 (by simp), hsecond₂]
  have htarget : (MissionCall.removeMission 7).target db₃ = some 0 := by
    rw [MissionCall.target, hstored₃.take_slots]
    simp [List.findIdx?_cons, hfirst₃]
  obtain ⟨db₄, hremove, hholds₄, hheap₄⟩ :=
    hstored₃.holds.removeAt_inner (show _ = [0, 1] ++ [2] from rfl) (i := 0) (by decide)
  have happly : (MissionCall.removeMission 7).apply .release db₃ = .ok db₄ := by
    rw [hstored₃.apply_eq .release (by simp), htarget]
    exact hremove
  have hfresh : (MissionCall.removeMission 7).Fresh db₃ := trivial
  have hrun₄ := runs_concat hrun₃ hfresh happly
  have hstored₄ : Stored db₄ [2, 1] _ := ⟨hholds₄, by
    have htotal := hstored₃.total
    simp only [List.length_append, List.length_cons, List.length_nil] at htotal ⊢
    omega⟩
  have hthird₄ : db₄.items.heap 3 = none := by
    rw [hheap₄]
    refine Owners.freed_eq_none (hnone₃ 3 (by decide) (hnone₂ 3 (by decide) ?_))
    exact hnone₁ 3 (by decide) rfl
  obtain ⟨db₅, _, hrun₅, hstored₅, hlast₅, hkept₅, -⟩ :=
    runs_createMission hrun₄ hstored₄ (by decide) 9 hthird₄
  have hmoved₅ : db₅.items.heap 2 = some ⟨8⟩ := by
    rw [hkept₅ 2 (by simp), hheap₄, Owners.freed_eq_of_ne (by simp), hthird₃]
  have hsecond₅ : db₅.items.heap 1 = some ⟨7⟩ := by
    rw [hkept₅ 1 (by simp), hheap₄, Owners.freed_eq_of_ne (by simp), hsecond₃]
  obtain ⟨_, hr, hconclusion⟩ := missions_multiset hrun₅
  cases hr
  refine ⟨db₅, hrun₅, hstored₅.take_slots, ?_, hconclusion⟩
  rw [hstored₅.live_eq]
  simp [hmoved₅, hsecond₅, hlast₅]
  rfl

end TerraX
