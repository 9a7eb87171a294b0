import TerraX.Lib.Memory
import TerraX.Net.NetDefine
import Mathlib.Data.Finset.Sort

/-!
# The servers that a server knows

`ServerManager`. Every server keeps the peer infos of the others by peer type, and changes
them when a `PktServerSync` from the center arrives. `std::map` is the function that finds
an entry in it, and `std::set` the finite set of its elements; its iteration goes through
them in the order of `int32_t`. The printing is left out.

## Main definitions

- `ServerInfos` — `m_ServerInfos`
- `PktServerSync`, `ServerManager.onMessagePktServerSync`
- `ServerInfos.known` — the peer infos of a type, whether its set is there or not

## Main results

- `ServerManager.mem_known_foldl_add`, `ServerManager.removeInfo_of_mem` — what a message does
- `ServerManager.syncChanges_iff` — the messages that change something
-/

namespace TerraX

open Memory

/-- `PktServerSync_SyncType`. The field of the message may hold other numbers, too. -/
inductive SyncType
  | add
  | update
  | remove
  | unnamed (value : Word)
deriving DecidableEq, Repr

/-- `PktServerSync`. -/
structure PktServerSync where
  type : SyncType := .add
  serverInfo : List Word := []
deriving DecidableEq, Repr

/-- `std::map<PeerType_t, std::set<int32_t>>`. -/
abbrev ServerInfos := PeerType → Option (Finset Word)

namespace ServerInfos

/-- The order of a `std::set<int32_t>`. -/
def Before (v w : Word) : Prop := v.toInt32 ≤ w.toInt32

instance : DecidableRel Before := fun v w => inferInstanceAs (Decidable (v.toInt32 ≤ w.toInt32))

instance : IsTrans Word Before := ⟨fun _ _ _ => Int32.le_trans⟩

instance : Std.Antisymm Before :=
  ⟨fun v w h h' => by
    have heq := congrArg Int32.toUInt32 (Int32.le_antisymm h h')
    rwa [UInt32.toUInt32_toInt32, UInt32.toUInt32_toInt32] at heq⟩

instance : Std.Total Before := ⟨fun _ _ => Int32.le_total _ _⟩

/-- The elements of a set as an iteration goes through them. -/
def inOrder (s : Finset Word) : List Word := s.sort Before

/-- The peer infos of a type. A type without a set has none. -/
def known (infos : ServerInfos) (peerType : PeerType) : Finset Word := (infos peerType).getD ∅

/-- `m_ServerInfos[pi.peer_type].insert(peer_info)`. -/
def add (infos : ServerInfos) (peerInfo : Word) : ServerInfos :=
  let pi := PeerInfo.parse peerInfo
  Function.update infos pi.peerType (some (insert peerInfo (infos.known pi.peerType)))

/-- Every peer info is filed under its own type. -/
def WellTyped (infos : ServerInfos) : Prop :=
  ∀ peerType, ∀ w ∈ infos.known peerType, PeerInfo.getPeerType w = peerType

@[simp] theorem mem_inOrder {s : Finset Word} {w : Word} : w ∈ inOrder s ↔ w ∈ s :=
  Finset.mem_sort Before

theorem nodup_inOrder (s : Finset Word) : (inOrder s).Nodup := Finset.sort_nodup s Before

@[simp] theorem known_empty (peerType : PeerType) : known (fun _ => none) peerType = ∅ := rfl

theorem known_update (infos : ServerInfos) (t : PeerType) (entry : Option (Finset Word)) :
    known (Function.update infos t entry) = Function.update infos.known t (entry.getD ∅) := by
  funext t'
  by_cases ht : t' = t
  · subst ht
    rw [known, Function.update_self, Function.update_self]
  · rw [known, Function.update_of_ne ht, Function.update_of_ne ht, known]

theorem mem_known_add {infos : ServerInfos} {peerInfo w : Word} {t : PeerType} :
    w ∈ (infos.add peerInfo).known t ↔
      w ∈ infos.known t ∨ (w = peerInfo ∧ PeerInfo.getPeerType peerInfo = t) := by
  rw [add, known_update]
  by_cases ht : t = PeerInfo.getPeerType peerInfo
  · subst ht
    rw [PeerInfo.parse_eq, Function.update_self, Option.getD_some, Finset.mem_insert, or_comm]
    exact or_congr_right ⟨fun heq => ⟨heq, rfl⟩, And.left⟩
  · rw [PeerInfo.parse_eq, Function.update_of_ne ht]
    simp [Ne.symm ht]

/-- An entry that has lost one peer info. -/
theorem mem_known_erase {infos : ServerInfos} {t : PeerType} {entry : Option (Finset Word)}
    {peerInfo : Word} (hentry : entry.getD ∅ = (infos.known t).erase peerInfo) {t' : PeerType}
    {w : Word} : w ∈ known (Function.update infos t entry) t' ↔
      w ∈ infos.known t' ∧ ¬ (w = peerInfo ∧ t = t') := by
  rw [known_update]
  by_cases ht : t' = t
  · subst ht
    rw [Function.update_self, hentry, Finset.mem_erase]
    constructor
    · rintro ⟨hne, hw⟩
      exact ⟨hw, fun heq => hne heq.1⟩
    · rintro ⟨hw, hne⟩
      exact ⟨fun heq => hne ⟨heq, rfl⟩, hw⟩
  · rw [Function.update_of_ne ht]
    simp [Ne.symm ht]

theorem WellTyped.add {infos : ServerInfos} (h : infos.WellTyped) (peerInfo : Word) :
    (infos.add peerInfo).WellTyped := by
  intro t w hw
  rcases mem_known_add.mp hw with hw | ⟨rfl, ht⟩
  · exact h t w hw
  · exact ht

end ServerInfos

namespace ServerManager

open ServerInfos

/-- The first element of the set of a type, or 0 if there is none. -/
def firstPeerInfo (infos : ServerInfos) (peerType : PeerType) : Word :=
  match infos peerType with
  | none => 0
  | some set => (inOrder set).headD 0

/-- `ServerManager::GetCenterPeerInfo`. -/
def getCenterPeerInfo (infos : ServerInfos) : Word := firstPeerInfo infos .centerserver

/-- `ServerManager::GetWorldPeerInfo`. -/
def getWorldPeerInfo (infos : ServerInfos) : Word := firstPeerInfo infos .worldserver

/-- The loop for `PktServerSync_SyncType_remove`: one turn. -/
def removeInfo (build : Build) (infos : ServerInfos) (peerInfo : Word) :
    Except Fault ServerInfos := do
  let pi := PeerInfo.parse peerInfo
  let it := infos pi.peerType
  check build it.isSome
  match it with
  | none => return infos
  | some set => return Function.update infos pi.peerType (some (set.erase peerInfo))

/-- `ServerManager::OnMessage_PktServerSync`. -/
def onMessagePktServerSync (build : Build) (infos : ServerInfos) (pkt : PktServerSync) :
    Except Fault ServerInfos :=
  let infos :=
    if pkt.type = .add ∨ pkt.type = .update then pkt.serverInfo.foldl ServerInfos.add infos
    else infos
  if pkt.type = .remove then pkt.serverInfo.foldlM (removeInfo build) infos else .ok infos

/-- The getters see the sets only, not whether an empty one is there. -/
theorem firstPeerInfo_eq (infos : ServerInfos) (peerType : PeerType) :
    firstPeerInfo infos peerType = (inOrder (infos.known peerType)).headD 0 := by
  unfold firstPeerInfo known
  cases infos peerType with
  | none =>
    rw [Option.getD_none, inOrder, Finset.sort_empty]
    rfl
  | some set => rfl

/-- The first peer info of a type has this type, or there is none. -/
theorem firstPeerInfo_cases {infos : ServerInfos} (h : infos.WellTyped) (peerType : PeerType) :
    PeerInfo.getPeerType (firstPeerInfo infos peerType) = peerType ∨
      firstPeerInfo infos peerType = 0 := by
  rw [firstPeerInfo_eq]
  cases horder : inOrder (infos.known peerType) with
  | nil => exact Or.inr rfl
  | cons w ws => exact Or.inl (h peerType w (mem_inOrder.mp (horder ▸ List.mem_cons_self)))

/-! ### What a message does -/

theorem mem_known_foldl_add {serverInfo : List Word} {infos : ServerInfos} {w : Word}
    {t : PeerType} : w ∈ (serverInfo.foldl ServerInfos.add infos).known t ↔
      w ∈ infos.known t ∨ (w ∈ serverInfo ∧ PeerInfo.getPeerType w = t) := by
  induction serverInfo generalizing infos with
  | nil => simp
  | cons v serverInfo ih =>
    rw [List.foldl_cons, ih, mem_known_add, List.mem_cons, or_assoc]
    refine or_congr_right ?_
    constructor
    · rintro (⟨rfl, ht⟩ | ⟨hmem, ht⟩)
      · exact ⟨Or.inl rfl, ht⟩
      · exact ⟨Or.inr hmem, ht⟩
    · rintro ⟨rfl | hmem, ht⟩
      · exact Or.inl ⟨rfl, ht⟩
      · exact Or.inr ⟨hmem, ht⟩

theorem onMessagePktServerSync_remove (build : Build) (infos : ServerInfos)
    (serverInfo : List Word) :
    onMessagePktServerSync build infos ⟨.remove, serverInfo⟩ =
      serverInfo.foldlM (removeInfo build) infos := rfl

/-- A peer info that is known can be removed, and is gone then. -/
theorem removeInfo_of_mem (build : Build) {infos : ServerInfos} {peerInfo : Word}
    (h : peerInfo ∈ infos.known (PeerInfo.getPeerType peerInfo)) :
    ∃ infos', removeInfo build infos peerInfo = .ok infos' ∧
      ∀ t w, w ∈ infos'.known t ↔
        w ∈ infos.known t ∧ ¬ (w = peerInfo ∧ PeerInfo.getPeerType peerInfo = t) := by
  cases hset : infos (PeerInfo.getPeerType peerInfo) with
  | none =>
    rw [known, hset] at h
    exact absurd h (Finset.notMem_empty _)
  | some set =>
    refine ⟨Function.update infos (PeerInfo.getPeerType peerInfo) (some (set.erase peerInfo)),
      ?_, fun t w => ?_⟩
    · have hcheck : check build (some set).isSome = .ok () := check_of build rfl
      simp only [removeInfo, PeerInfo.parse_eq, hset, hcheck, ok_bind, pure_eq_ok]
    · exact mem_known_erase (by rw [Option.getD_some, known, hset, Option.getD_some])

/-! ### Which messages change something -/

/-- One turn of the loop that removes. It takes at most its own peer info out, and leaves the map
    as it is if this is not there. -/
theorem removeInfo_ok {build : Build} {infos infos' : ServerInfos} {peerInfo : Word}
    (h : removeInfo build infos peerInfo = .ok infos') :
    (∀ t, (infos' t).isSome = (infos t).isSome) ∧
      (∀ t w, w ∈ infos'.known t → w ∈ infos.known t) ∧
      peerInfo ∉ infos'.known (PeerInfo.getPeerType peerInfo) ∧
      (peerInfo ∉ infos.known (PeerInfo.getPeerType peerInfo) → infos' = infos) ∧
      (build = .debug → (infos (PeerInfo.getPeerType peerInfo)).isSome) := by
  rw [removeInfo, PeerInfo.parse_eq] at h
  obtain ⟨_, hcheck, h⟩ := bind_eq_ok.mp h
  have hdebug : build = .debug → (infos (PeerInfo.getPeerType peerInfo)).isSome := by
    rintro rfl
    by_contra hnone
    rw [check, if_neg hnone] at hcheck
    cases hcheck
  cases hset : infos (PeerInfo.getPeerType peerInfo) with
  | none =>
    simp only [hset] at h
    cases h
    refine ⟨fun _ => rfl, fun _ _ hw => hw, ?_, fun _ => rfl, fun hb => by rw [← hset]; exact hdebug hb⟩
    rw [known, hset]
    exact Finset.notMem_empty _
  | some set =>
    simp only [hset] at h
    cases h
    have hknown : infos.known (PeerInfo.getPeerType peerInfo) = set := by rw [known, hset]; rfl
    -- only the set of this type changes, and it stays in the map when it becomes empty
    refine ⟨fun t => ?_, fun t w hw => ?_, ?_, fun hnot => ?_, fun _ => rfl⟩
    · by_cases ht : t = PeerInfo.getPeerType peerInfo
      · subst ht
        rw [Function.update_self, hset]
        rfl
      · rw [Function.update_of_ne ht]
    · rw [known_update] at hw
      by_cases ht : t = PeerInfo.getPeerType peerInfo
      · subst ht
        rw [Function.update_self] at hw
        rw [hknown]
        exact Finset.mem_of_mem_erase hw
      · rwa [Function.update_of_ne ht] at hw
    · rw [known_update, Function.update_self]
      exact Finset.notMem_erase _ _
    · rw [hknown] at hnot
      rw [Finset.erase_eq_of_notMem hnot, ← hset]
      exact Function.update_eq_self _ _

/-- The loop that removes. -/
theorem foldlM_removeInfo_ok {build : Build} {serverInfo : List Word} {infos infos' : ServerInfos}
    (h : serverInfo.foldlM (removeInfo build) infos = .ok infos') :
    (∀ t w, w ∈ infos'.known t → w ∈ infos.known t) ∧
      (∀ w ∈ serverInfo, w ∉ infos'.known (PeerInfo.getPeerType w)) ∧
      ((∀ w ∈ serverInfo, w ∉ infos.known (PeerInfo.getPeerType w)) → infos' = infos) ∧
      (build = .debug → ∀ w ∈ serverInfo, (infos (PeerInfo.getPeerType w)).isSome) := by
  induction serverInfo generalizing infos with
  | nil =>
    cases h
    exact ⟨fun _ _ hw => hw, fun _ hw => (nomatch hw), fun _ => rfl, fun _ _ hw => nomatch hw⟩
  | cons peerInfo serverInfo ih =>
    rw [List.foldlM_cons] at h
    obtain ⟨infos₁, hturn, hrest⟩ := bind_eq_ok.mp h
    obtain ⟨hsome, hsub, hgone, hsame, hdebug⟩ := removeInfo_ok hturn
    obtain ⟨hsub', hgone', hsame', hdebug'⟩ := ih hrest
    refine ⟨fun t w hw => hsub t w (hsub' t w hw), ?_, fun hnone => ?_, fun hb => ?_⟩
    · exact List.forall_mem_cons.mpr ⟨fun hw => hgone (hsub' _ _ hw), hgone'⟩
    · obtain ⟨hfirst, hnone⟩ := List.forall_mem_cons.mp hnone
      have heq := hsame hfirst
      rw [hsame' (by rwa [heq]), heq]
    · refine List.forall_mem_cons.mpr ⟨hdebug hb, fun w hw => ?_⟩
      rw [← hsome]
      exact hdebug' hb w hw

/-- It returns if the assertion holds in each turn. -/
theorem foldlM_removeInfo_returns {build : Build} {serverInfo : List Word} {infos : ServerInfos}
    (h : build = .debug → ∀ w ∈ serverInfo, (infos (PeerInfo.getPeerType w)).isSome) :
    ∃ infos', serverInfo.foldlM (removeInfo build) infos = .ok infos' := by
  induction serverInfo generalizing infos with
  | nil => exact ⟨infos, rfl⟩
  | cons peerInfo serverInfo ih =>
    have hcheck : check build (infos (PeerInfo.getPeerType peerInfo)).isSome = .ok () :=
      check_of_debug fun hb => h hb peerInfo List.mem_cons_self
    obtain ⟨infos₁, hturn⟩ : ∃ infos₁, removeInfo build infos peerInfo = .ok infos₁ := by
      rw [removeInfo, PeerInfo.parse_eq]
      dsimp only
      rw [hcheck, ok_bind]
      split
      · exact ⟨_, rfl⟩
      · exact ⟨_, rfl⟩
    obtain ⟨hsome, -⟩ := removeInfo_ok hturn
    have hstill : build = .debug → ∀ w ∈ serverInfo, (infos₁ (PeerInfo.getPeerType w)).isSome := by
      intro hb w hw
      rw [hsome]
      exact h hb w (List.mem_cons_of_mem _ hw)
    obtain ⟨infos', hrest⟩ := ih hstill
    rw [List.foldlM_cons, hturn]
    exact ⟨infos', hrest⟩

/-- What a debug build asserts of a message: the types of what it removes are in the map. -/
def SyncAsserts (infos : ServerInfos) (pkt : PktServerSync) : Prop :=
  pkt.type = .remove → ∀ w ∈ pkt.serverInfo, (infos (PeerInfo.getPeerType w)).isSome

theorem onMessagePktServerSync_returns_iff (build : Build) (infos : ServerInfos)
    (pkt : PktServerSync) :
    (∃ infos', onMessagePktServerSync build infos pkt = .ok infos') ↔
      (build = .debug → SyncAsserts infos pkt) := by
  obtain ⟨type, serverInfo⟩ := pkt
  by_cases htype : type = .remove
  · subst htype
    rw [onMessagePktServerSync_remove]
    constructor
    · rintro ⟨infos', h⟩ hb -
      exact (foldlM_removeInfo_ok h).2.2.2 hb
    · exact fun h => foldlM_removeInfo_returns fun hb => h hb rfl
  · rw [onMessagePktServerSync]
    dsimp only
    rw [if_neg htype]
    exact iff_of_true ⟨_, rfl⟩ fun _ heq => absurd heq htype

/-- A type that is in the map stays there. -/
theorem isSome_foldl_add {serverInfo : List Word} {infos : ServerInfos} {t : PeerType}
    (h : (infos t).isSome) : (serverInfo.foldl ServerInfos.add infos t).isSome := by
  induction serverInfo generalizing infos with
  | nil => exact h
  | cons w serverInfo ih =>
    rw [List.foldl_cons]
    refine ih ?_
    rw [ServerInfos.add]
    by_cases ht : t = (PeerInfo.parse w).peerType
    · subst ht
      rw [Function.update_self]
      rfl
    · rwa [Function.update_of_ne ht]

theorem isSome_foldlM_removeInfo {build : Build} {serverInfo : List Word}
    {infos infos' : ServerInfos} (h : serverInfo.foldlM (removeInfo build) infos = .ok infos')
    (t : PeerType) : (infos' t).isSome = (infos t).isSome := by
  induction serverInfo generalizing infos with
  | nil =>
    cases h
    rfl
  | cons peerInfo serverInfo ih =>
    rw [List.foldlM_cons] at h
    obtain ⟨infos₁, hturn, hrest⟩ := bind_eq_ok.mp h
    exact (ih hrest).trans ((removeInfo_ok hturn).1 t)

theorem isSome_onMessagePktServerSync {build : Build} {infos infos' : ServerInfos}
    {pkt : PktServerSync} (h : onMessagePktServerSync build infos pkt = .ok infos') {t : PeerType}
    (ht : (infos t).isSome) : (infos' t).isSome := by
  rw [onMessagePktServerSync] at h
  have hadded : ((if pkt.type = .add ∨ pkt.type = .update then
      pkt.serverInfo.foldl ServerInfos.add infos else infos) t).isSome := by
    split
    · exact isSome_foldl_add ht
    · exact ht
  split at h
  · rwa [isSome_foldlM_removeInfo h]
  · cases h
    exact hadded

/-- What could be handled can be handled again. -/
theorem SyncAsserts.again {build : Build} {infos infos' : ServerInfos} {pkt pkt' : PktServerSync}
    (h : SyncAsserts infos pkt) (hrun : onMessagePktServerSync build infos pkt' = .ok infos') :
    SyncAsserts infos' pkt :=
  fun htype w hw => isSome_onMessagePktServerSync hrun (h htype w hw)

theorem add_of_mem {infos : ServerInfos} {w : Word}
    (h : w ∈ infos.known (PeerInfo.getPeerType w)) : infos.add w = infos := by
  cases hset : infos (PeerInfo.getPeerType w) with
  | none =>
    rw [known, hset] at h
    exact absurd h (Finset.notMem_empty _)
  | some set =>
    rw [ServerInfos.add, PeerInfo.parse_eq]
    dsimp only
    rw [Finset.insert_eq_of_mem h, known, hset, Option.getD_some, ← hset]
    exact Function.update_eq_self _ _

/-- Adding changes the map exactly if something is new. -/
theorem foldl_add_eq_self_iff {infos : ServerInfos} {serverInfo : List Word} :
    serverInfo.foldl ServerInfos.add infos = infos ↔
      ∀ w ∈ serverInfo, w ∈ infos.known (PeerInfo.getPeerType w) := by
  constructor
  · intro h w hw
    rw [← h]
    exact mem_known_foldl_add.mpr (Or.inr ⟨hw, rfl⟩)
  · intro h
    induction serverInfo with
    | nil => rfl
    | cons w serverInfo ih =>
      obtain ⟨hw, hrest⟩ := List.forall_mem_cons.mp h
      rw [List.foldl_cons, add_of_mem hw]
      exact ih hrest

/-- Adding one peer info changes the map exactly if it is new. -/
theorem add_eq_self_iff {infos : ServerInfos} {peerInfo : Word} :
    infos.add peerInfo = infos ↔ peerInfo ∈ infos.known (PeerInfo.getPeerType peerInfo) := by
  have hfold : [peerInfo].foldl ServerInfos.add infos = infos ↔
      ∀ w ∈ [peerInfo], w ∈ infos.known (PeerInfo.getPeerType w) := foldl_add_eq_self_iff
  rwa [List.foldl_cons, List.foldl_nil, List.forall_mem_singleton] at hfold

/-- A message that adds an unknown peer info, or removes a known one without an assertion that
    fails. -/
def SyncChanges (build : Build) (infos : ServerInfos) (pkt : PktServerSync) : Prop :=
  ((pkt.type = .add ∨ pkt.type = .update) ∧
    ∃ w ∈ pkt.serverInfo, w ∉ infos.known (PeerInfo.getPeerType w)) ∨
  (pkt.type = .remove ∧ (∃ w ∈ pkt.serverInfo, w ∈ infos.known (PeerInfo.getPeerType w)) ∧
    (build = .debug → ∀ w ∈ pkt.serverInfo, (infos (PeerInfo.getPeerType w)).isSome))

/-- These are the messages that change something. -/
theorem syncChanges_iff {build : Build} {infos : ServerInfos} {pkt : PktServerSync} :
    SyncChanges build infos pkt ↔
      ∃ infos', onMessagePktServerSync build infos pkt = .ok infos' ∧ infos' ≠ infos := by
  obtain ⟨type, serverInfo⟩ := pkt
  have hadd : ∀ type, type = .add ∨ type = .update →
      onMessagePktServerSync build infos ⟨type, serverInfo⟩ =
        .ok (serverInfo.foldl ServerInfos.add infos) := by
    rintro _ (rfl | rfl) <;> rfl
  -- additions and updates are handled alike, removals apart, and other types not at all
  by_cases htype : type = .add ∨ type = .update
  · have hnot : type ≠ .remove := by rcases htype with rfl | rfl <;> exact nofun
    rw [hadd type htype, SyncChanges]
    constructor
    · rintro (⟨-, w, hw, hnew⟩ | ⟨hremove, -⟩)
      · exact ⟨_, rfl, fun heq => hnew (foldl_add_eq_self_iff.mp heq w hw)⟩
      · exact absurd hremove hnot
    · rintro ⟨infos', hok, hne⟩
      cases hok
      by_contra hno
      refine hne (foldl_add_eq_self_iff.mpr fun w hw => ?_)
      by_contra hnew
      exact hno (Or.inl ⟨htype, w, hw, hnew⟩)
  · by_cases hremove : type = .remove
    · subst hremove
      rw [onMessagePktServerSync_remove, SyncChanges]
      constructor
      · rintro (⟨hadd, -⟩ | ⟨-, ⟨w, hw, hknown⟩, hdebug⟩)
        · exact absurd hadd htype
        · obtain ⟨infos', hok⟩ := foldlM_removeInfo_returns hdebug
          refine ⟨infos', hok, ?_⟩
          rintro rfl
          exact (foldlM_removeInfo_ok hok).2.1 w hw hknown
      · rintro ⟨infos', hok, hne⟩
        obtain ⟨-, -, hsame, hdebug⟩ := foldlM_removeInfo_ok hok
        refine Or.inr ⟨rfl, ?_, hdebug⟩
        by_contra hno
        exact hne (hsame fun w hw hknown => hno ⟨w, hw, hknown⟩)
    · have hnothing : onMessagePktServerSync build infos ⟨type, serverInfo⟩ = .ok infos := by
        rw [onMessagePktServerSync]
        dsimp only
        rw [if_neg htype, if_neg hremove]
      rw [hnothing, SyncChanges]
      constructor
      · rintro (⟨hadd, -⟩ | ⟨hrem, -⟩)
        · exact absurd hadd htype
        · exact absurd hrem hremove
      · rintro ⟨infos', hok, hne⟩
        cases hok
        exact absurd rfl hne

end ServerManager

end TerraX
