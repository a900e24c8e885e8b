import FactoryThing.AddressSpace.ContinuationPoints
import FactoryThing.Lib.Runs

/-!
# Paging

A page is a piece of the list that one unlimited Browse returns: the entries after those that have
been delivered, as many as the page takes. Page by page the whole list comes out, and the
continuation point is free again in the end. The number of delivered entries is kept in 32 bits.
-/

namespace FactoryThing.AddressSpace

variable {A : Type} {sv : Server A} {descr : BrowseDescription}

/-- The descriptions of the relevant ones among some references. -/
def relevantReferences (sv : Server A) (descr : BrowseDescription)
    (relevant : Option (List NodeKey)) (refs : List ReferenceNode) : List ReferenceDescription :=
  refs.filterMap fun ref =>
    (returnRelevantNode sv descr relevant ref).map fun current =>
      fillReferenceDescription current ref descr.resultMask

variable (relevant : Option (List NodeKey)) {results : List ReferenceDescription}
  {session : Session} {continuationPoint : Guid}

/-- What the loop does from any point on: it skips what has been delivered, takes what there is room
for, and is at the end if there is more room. -/
theorem browseLoop_spec (maxrefs c : Nat) (refs : List ReferenceNode) :
    ∀ loop : BrowseLoop, loop.references.length ≤ maxrefs →
      loop.skipped ≤ c → (loop.skipped < c → loop.references = []) →
      let left := (relevantReferences sv descr relevant refs).drop (c - loop.skipped)
      let room := maxrefs - loop.references.length
      let loop' := browseLoop sv descr relevant maxrefs c refs loop
      loop'.references = loop.references ++ left.take room ∧
        loop'.i ≤ loop.i + refs.length ∧
        (left.take room).length + loop.i ≤ loop'.i ∧
        (left.length < room → loop'.i = loop.i + refs.length) ∧
        (loop'.i = loop.i + refs.length → left.length ≤ room) := by
  induction refs with
  | nil =>
    intro loop _ _ _
    simp [relevantReferences, browseLoop]
  | cons ref refs ih =>
    intro loop hroom hskipped hfirst
    unfold browseLoop
    split
    · -- the page is full
      have hzero : maxrefs - loop.references.length = 0 := by omega
      rw [hzero]
      simp
    rename_i hfree
    have hfree : loop.references.length < maxrefs := not_not.mp hfree
    cases hcurrent : returnRelevantNode sv descr relevant ref with
    | none =>
      have hsame : relevantReferences sv descr relevant (ref :: refs) =
          relevantReferences sv descr relevant refs := by
        rw [relevantReferences, List.filterMap_cons_none (by rw [hcurrent]; rfl)]
        rfl
      obtain ⟨h₁, h₂, h₃, h₄, h₅⟩ := ih { loop with i := loop.i + 1 } hroom hskipped hfirst
      rw [hsame]
      dsimp only at h₁ h₂ h₃ h₄ h₅ ⊢
      rw [List.length_cons]
      exact ⟨h₁, by omega, by omega, fun h => by rw [h₄ h]; omega, fun h => h₅ (by omega)⟩
    | some current =>
      have hcons : relevantReferences sv descr relevant (ref :: refs) =
          fillReferenceDescription current ref descr.resultMask ::
            relevantReferences sv descr relevant refs := by
        rw [relevantReferences, List.filterMap_cons_some (by rw [hcurrent]; rfl)]
        rfl
      dsimp only
      split
      · rename_i hskip
        obtain ⟨h₁, h₂, h₃, h₄, h₅⟩ := ih { loop with skipped := loop.skipped + 1, i := loop.i + 1 }
          hroom (by exact hskip) fun _ => hfirst hskip
        have hdrop : c - loop.skipped = c - (loop.skipped + 1) + 1 := by omega
        rw [hcons, hdrop, List.drop_succ_cons]
        dsimp only at h₁ h₂ h₃ h₄ h₅ ⊢
        rw [List.length_cons]
        exact ⟨h₁, by omega, by omega, fun h => by rw [h₄ h]; omega, fun h => h₅ (by omega)⟩
      · rename_i hskip
        have hall : c - loop.skipped = 0 := by omega
        obtain ⟨h₁, h₂, h₃, h₄, h₅⟩ := ih
          { loop with
            references := loop.references ++ [fillReferenceDescription current ref descr.resultMask]
            i := loop.i + 1 }
          (by rw [List.length_append]; exact hfree) hskipped fun h => absurd h hskip
        have hroom' : maxrefs - loop.references.length =
            maxrefs - (loop.references ++
              [fillReferenceDescription current ref descr.resultMask]).length + 1 := by
          rw [List.length_append, List.length_singleton]
          omega
        dsimp only at h₁ h₂ h₃ h₄ h₅ ⊢
        rw [hall, List.drop_zero] at h₁ h₃ h₄ h₅ ⊢
        rw [hcons, hroom', List.take_succ_cons, List.length_cons, List.length_cons,
          List.length_cons]
        rw [List.append_assoc] at h₁
        exact ⟨h₁, by omega, by omega, fun h => by rw [h₄ (by omega)]; omega,
          fun h => Nat.succ_le_succ (h₅ (by omega))⟩

theorem browseLoop_start (maxrefs c : Nat) (refs : List ReferenceNode)
    {left : List ReferenceDescription}
    (hleft : left = (relevantReferences sv descr relevant refs).drop c) :
    let loop := browseLoop sv descr relevant maxrefs c refs ⟨0, [], 0⟩
    loop.references = left.take maxrefs ∧ loop.i ≤ refs.length ∧
      (left.take maxrefs).length ≤ loop.i ∧
      (left.length < maxrefs → loop.i = refs.length) ∧
      (loop.i = refs.length → left.length ≤ maxrefs) := by
  subst hleft
  simpa using @browseLoop_spec _ sv descr relevant maxrefs c refs ⟨0, [], 0⟩
    (Nat.zero_le _) (Nat.zero_le _) fun _ => rfl

/-- A page takes its piece of the results, and it is the last one only if nothing is left. -/
def IsPage (results : List ReferenceDescription) (maxrefs c : UInt32)
    (browsed : BrowseResult × Bool) : Prop :=
  let left := results.drop c.toNat
  browsed.1 = ⟨StatusCode.good, left.take (if maxrefs = 0 then left.length else maxrefs.toNat)⟩ ∧
    (browsed.2 = true → maxrefs = 0 ∨ left.length ≤ maxrefs.toNat) ∧
    (browsed.2 = false → maxrefs ≠ 0 ∧ maxrefs.toNat ≤ left.length)

/-- The results of a description: every page is one of them. -/
def Listing (sv : Server A) (descr : BrowseDescription) (results : List ReferenceDescription) :
    Prop :=
  ∀ maxrefs c, IsPage results maxrefs c (browse sv descr maxrefs c true)

theorem browseRelevantReferences_page {node : Node A} (hnode : sv.get descr.nodeId = some node)
    (maxrefs c : UInt32) :
    IsPage (relevantReferences sv descr relevant node.references) maxrefs c
      (browseRelevantReferences sv relevant descr maxrefs c true) := by
  unfold IsPage
  intro left
  generalize hbrowsed : browseRelevantReferences sv relevant descr maxrefs c true = browsed
  have hle : left.length ≤ node.references.length := by
    rw [List.length_drop]
    exact Nat.le_trans (Nat.sub_le _ _) (List.length_filterMap_le _ _)
  by_cases hempty : node.references.length = 0
  · have hleft : left = [] := List.length_eq_zero_iff.mp (by omega)
    have hdone : browsed = (⟨StatusCode.good, []⟩, true) := by
      simp only [← hbrowsed, browseRelevantReferences, hnode, if_pos hempty]
    rw [hdone, hleft]
    simp
  · have hzero : maxrefs = 0 ↔ maxrefs.toNat = 0 := by
      rw [← UInt32.toNat_inj]
      rfl
    -- the page is no longer than the array of references
    obtain ⟨room, hroom, hpos, hcase⟩ : ∃ room, browsed =
        (⟨StatusCode.good, (browseLoop sv descr relevant room c.toNat node.references
          ⟨0, [], 0⟩).references⟩,
        decide ((browseLoop sv descr relevant room c.toNat node.references ⟨0, [], 0⟩).i =
          node.references.length)) ∧ 0 < room ∧
        ((maxrefs = 0 ∨ node.references.length < maxrefs.toNat) ∧
            room = node.references.length ∨
          maxrefs ≠ 0 ∧ maxrefs.toNat ≤ node.references.length ∧ room = maxrefs.toNat) := by
      refine ⟨_, by
        simp only [← hbrowsed, browseRelevantReferences, hnode, if_neg hempty]
        rfl, ?_⟩
      by_cases h : maxrefs = 0
      · rw [if_pos h]
        exact ⟨by omega, .inl ⟨.inl h, rfl⟩⟩
      · rw [if_neg h]
        have hpos : maxrefs.toNat ≠ 0 := fun h' => h (hzero.mpr h')
        by_cases hlong : maxrefs.toNat > node.references.length
        · rw [if_pos hlong]
          exact ⟨by omega, .inl ⟨.inr hlong, rfl⟩⟩
        · rw [if_neg hlong]
          exact ⟨by omega, .inr ⟨h, by omega, rfl⟩⟩
    obtain ⟨hrefs, hmost, hleast, hend, hdone⟩ := @browseLoop_start _ sv descr relevant room
      c.toNat node.references left rfl
    rw [hroom, hrefs]
    refine ⟨?_, fun h => ?_, fun h => ?_⟩
    · obtain ⟨hall, rfl⟩ | ⟨hmax, -, rfl⟩ := hcase
      · rw [List.take_of_length_le hle]
        split
        · rw [List.take_length]
        · rename_i hmax
          have hlong := hall.resolve_left hmax
          rw [List.take_of_length_le (Nat.le_trans hle (Nat.le_of_lt hlong))]
      · rw [if_neg hmax]
    · have hshort := hdone (of_decide_eq_true h)
      obtain ⟨hall, rfl⟩ | ⟨-, -, rfl⟩ := hcase
      · exact hall.imp id fun hlong => Nat.le_trans hle (Nat.le_of_lt hlong)
      · exact .inr hshort
    · have hfull : room ≤ left.length := by
        by_contra hmore
        exact of_decide_eq_false h (hend (Nat.not_le.mp hmore))
      obtain ⟨-, rfl⟩ | ⟨hmax, -, rfl⟩ := hcase
      · -- every reference has been looked at
        rw [List.length_take, Nat.min_eq_left hfull] at hleast
        exact absurd (Nat.le_antisymm hmost hleast) (of_decide_eq_false h)
      · exact ⟨hmax, hfull⟩

theorem browse_listing (sv : Server A) (descr : BrowseDescription) :
    (∃ code, code ≠ StatusCode.good ∧
        ∀ maxrefs c, (browse sv descr maxrefs c true).1 = ⟨code, []⟩) ∨
      ∃ results, results.length ≤ (sv.references descr.nodeId).length ∧
        Listing sv descr results := by
  have hnode : ∀ relevant,
      (∃ code, code ≠ StatusCode.good ∧ ∀ maxrefs c,
          (browseRelevantReferences sv relevant descr maxrefs c true).1 = ⟨code, []⟩) ∨
        ∃ results : List ReferenceDescription,
          results.length ≤ (sv.references descr.nodeId).length ∧ ∀ maxrefs c,
            IsPage results maxrefs c
              (browseRelevantReferences sv relevant descr maxrefs c true) := by
    intro relevant
    cases hget : sv.get descr.nodeId with
    | none =>
      refine .inl ⟨StatusCode.badNodeIdUnknown, by decide, fun maxrefs c => ?_⟩
      rw [browseRelevantReferences, hget]
    | some node =>
      refine .inr ⟨relevantReferences sv descr relevant node.references, ?_,
        browseRelevantReferences_page relevant hget⟩
      rw [references_of_get hget]
      exact List.length_filterMap_le _ _
  unfold Listing browse
  split
  · exact .inl ⟨_, by decide, fun _ _ => rfl⟩
  split
  · exact hnode none
  split
  · exact .inl ⟨_, by decide, fun _ _ => rfl⟩
  · split
    · exact .inl ⟨_, by decide, fun _ _ => rfl⟩
    · simp only [not_true_eq_false, and_false, if_false]
      exact hnode _

theorem browseNextSingle_listing (hlisting : Listing sv descr results) {cp : ContinuationPointEntry}
    (hdescr : cp.browseDescription = descr) (available : UInt16)
    (rest : List ContinuationPointEntry) :
    let left := results.drop cp.continuationIndex.toNat
    let page := left.take (if cp.maxReferences = 0 then left.length else cp.maxReferences.toNat)
    browseNextSingle sv ⟨available, cp :: rest⟩ false cp.identifier ⟨true, true⟩ =
      if (browse sv descr cp.maxReferences cp.continuationIndex true).2 = true then
        (⟨available + 1, rest⟩, ⟨StatusCode.good, page, none⟩)
      else
        (⟨available,
            { cp with
              continuationIndex := cp.continuationIndex + UInt32.ofNat page.length } :: rest⟩,
          ⟨StatusCode.good, page, some cp.identifier⟩) := by
  intro left page
  have hpage : (browse sv cp.browseDescription cp.maxReferences cp.continuationIndex true).1 =
      ⟨StatusCode.good, page⟩ := by
    rw [hdescr]
    exact (hlisting cp.maxReferences cp.continuationIndex).1
  have hremove : Keyed.remove ContinuationPointEntry.identifier (cp :: rest) cp.identifier = rest :=
    List.eraseP_cons_of_pos (beq_self_eq_true _)
  subst hdescr
  simp only [browseNextSingle, Keyed.find_cons_self, serviceBrowseSingle, Option.getD_some, hpage,
    removeCp, hremove, Keyed.modify, Bool.false_eq_true, if_false, ne_eq, not_true_eq_false,
    if_true]

theorem nextPages_listing (hlisting : Listing sv descr results) (hsize : results.length < 2 ^ 32)
    {maxrefs : UInt32} (hmax : maxrefs ≠ 0) (ident : Guid) (available : UInt16)
    (rest : List ContinuationPointEntry) :
    ∀ (fuel : Nat) (c : UInt32), results.length - c.toNat < fuel → c.toNat ≤ results.length →
      ∃ pages, nextPages sv fuel ⟨available, ⟨ident, descr, c, maxrefs⟩ :: rest⟩ (some ident) =
          some (pages, ⟨available + 1, rest⟩) ∧
        (∀ page ∈ pages, page.length ≤ maxrefs.toNat) ∧
        pages.flatten = results.drop c.toNat := by
  have hpos : 0 < maxrefs.toNat := by
    rw [Nat.pos_iff_ne_zero]
    intro h
    exact hmax (UInt32.toNat_inj.mp h)
  intro fuel
  induction fuel with
  | zero =>
    intro c hleft
    exact absurd hleft (Nat.not_lt_zero _)
  | succ fuel ih =>
    intro c hleft hc
    obtain ⟨-, hlast, hmore⟩ := hlisting maxrefs c
    have hnext :=
      @browseNextSingle_listing _ _ _ _ hlisting ⟨ident, descr, c, maxrefs⟩ rfl available
      rest
    dsimp only at hnext
    rw [if_neg hmax] at hnext
    rw [nextPages, hnext]
    by_cases hdone : (browse sv descr maxrefs c true).2 = true
    · -- the last page
      have hshort := (hlast hdone).resolve_left hmax
      rw [if_pos hdone]
      refine ⟨[(results.drop c.toNat).take maxrefs.toNat], by simp [nextPages], ?_, ?_⟩
      · intro page hpage
        rw [List.mem_singleton.mp hpage]
        exact List.length_take_le _ _
      · rw [List.flatten_singleton, List.take_of_length_le hshort]
    · have hfull := (hmore (Bool.eq_false_iff.mpr hdone)).2
      rw [if_neg hdone]
      have hpage : ((results.drop c.toNat).take maxrefs.toNat).length = maxrefs.toNat := by
        rw [List.length_take, Nat.min_eq_left hfull]
      rw [List.length_drop] at hfull
      have hindex : (c + UInt32.ofNat maxrefs.toNat).toNat = c.toNat + maxrefs.toNat := by
        rw [UInt32.ofNat_toNat, UInt32.toNat_add, Nat.mod_eq_of_lt]
        omega
      obtain ⟨pages, hpages, hlimit, hflat⟩ := ih (c + UInt32.ofNat maxrefs.toNat) (by omega)
        (by omega)
      rw [hpage]
      refine ⟨(results.drop c.toNat).take maxrefs.toNat :: pages, ?_, ?_, ?_⟩
      · dsimp only
        rw [hpages]
        rfl
      · intro page hmem
        obtain rfl | hmem := List.mem_cons.mp hmem
        · exact Nat.le_of_eq hpage
        · exact hlimit page hmem
      · rw [List.flatten_cons, hflat, hindex, ← List.drop_drop, List.take_append_drop]

theorem serviceBrowseSingle_listing (hlisting : Listing sv descr results)
    (havailable : 0 < session.availableContinuationPoints) (maxrefs : UInt32) (ident : Guid) :
    let page := results.take (if maxrefs = 0 then results.length else maxrefs.toNat)
    serviceBrowseSingle sv session none descr maxrefs ⟨true, true⟩ ident =
      if (browse sv descr maxrefs 0 true).2 = true then
        (session, ⟨StatusCode.good, page, none⟩)
      else
        (⟨session.availableContinuationPoints - 1,
            ⟨ident, descr, UInt32.ofNat page.length, maxrefs⟩ :: session.continuationPoints⟩,
          ⟨StatusCode.good, page, some ident⟩) := by
  intro page
  have hpage : (browse sv descr maxrefs 0 true).1 = ⟨StatusCode.good, page⟩ :=
    (hlisting maxrefs 0).1
  have hfree : ¬ session.availableContinuationPoints ≤ 0 := UInt16.not_le.mpr havailable
  simp only [serviceBrowseSingle, Option.getD_none, hpage, hfree, UInt32.zero_add, ne_eq,
    not_true_eq_false, or_self, if_false]

theorem browsePages_listing (sv : Server A) (session : Session) (descr : BrowseDescription)
    {maxrefs : UInt32} (ident : Guid) (hmax : maxrefs ≠ 0)
    (havailable : 0 < session.availableContinuationPoints)
    (hsize : (sv.references descr.nodeId).length < 2 ^ 32) :
    ∃ fuel pages, browsePages sv session fuel descr maxrefs ident = some (pages, session) ∧
      (∀ page ∈ pages, page.length ≤ maxrefs.toNat) ∧
      pages.flatten =
        (serviceBrowseSingle sv session none descr 0 ⟨true, true⟩ ident).2.references := by
  obtain ⟨code, hcode, hrefused⟩ | ⟨results, hle, hlisting⟩ := browse_listing sv descr
  · have hfirst : ∀ maxrefs, serviceBrowseSingle sv session none descr maxrefs ⟨true, true⟩ ident =
        (session, ⟨code, [], none⟩) := by
      intro maxrefs
      simp only [serviceBrowseSingle, Option.getD_none, hrefused]
      rw [if_pos hcode]
    refine ⟨0, [[]], ?_, ?_, ?_⟩
    · simp only [browsePages, hfirst, nextPages, Option.map_some]
    · simp
    · rw [hfirst]
      rfl
  · have hall : (serviceBrowseSingle sv session none descr 0 ⟨true, true⟩ ident).2.references =
        results := by
      rw [serviceBrowseSingle_listing hlisting havailable, if_pos rfl, List.take_length]
      split <;> rfl
    rw [hall]
    obtain ⟨-, hlast, hmore⟩ : IsPage results maxrefs 0 _ := hlisting maxrefs 0
    have hfirst := serviceBrowseSingle_listing hlisting havailable maxrefs ident
    dsimp only at hfirst
    rw [if_neg hmax] at hfirst
    by_cases hdone : (browse sv descr maxrefs 0 true).2 = true
    · have hshort : results.length ≤ maxrefs.toNat := (hlast hdone).resolve_left hmax
      rw [if_pos hdone] at hfirst
      refine ⟨0, [results.take maxrefs.toNat], ?_, ?_, ?_⟩
      · simp only [browsePages, hfirst, nextPages, Option.map_some]
      · intro page hmem
        rw [List.mem_singleton.mp hmem]
        exact List.length_take_le _ _
      · rw [List.flatten_singleton, List.take_of_length_le hshort]
    · have hfull : maxrefs.toNat ≤ results.length := (hmore (Bool.eq_false_iff.mpr hdone)).2
      have hlength : (results.take maxrefs.toNat).length = maxrefs.toNat := by
        rw [List.length_take, Nat.min_eq_left hfull]
      rw [if_neg hdone, hlength, UInt32.ofNat_toNat] at hfirst
      obtain ⟨pages, hpages, hlimit, hflat⟩ := nextPages_listing hlisting (by omega) hmax ident
        (session.availableContinuationPoints - 1) session.continuationPoints (results.length + 1)
        maxrefs (by omega) hfull
      rw [UInt16.sub_add_cancel] at hpages
      refine ⟨results.length + 1, results.take maxrefs.toNat :: pages, ?_, ?_, ?_⟩
      · simp only [browsePages, hfirst, hpages, Option.map_some]
      · intro page hmem
        obtain rfl | hmem := List.mem_cons.mp hmem
        · exact Nat.le_of_eq hlength
        · exact hlimit page hmem
      · rw [List.flatten_cons, hflat, List.take_append_drop]

/-! ## The continuation points of a session -/

/-- What a client does with its session, each time with the nodes as they are then. -/
inductive ViewEvent (A : Type)
  | browse (sv : Server A) (descr : BrowseDescription) (maxrefs : UInt32) (alloc : BrowseAllocs)
      (ident : Guid)
  | browseNext (sv : Server A) (releaseContinuationPoint : Bool) (continuationPoint : Guid)
      (alloc : BrowseAllocs)

/-- A Browse or a BrowseNext of the session. -/
def viewStep (session : Session) : ViewEvent A → Session × BrowseReply
  | .browse sv descr maxrefs alloc ident =>
      serviceBrowseSingle sv session none descr maxrefs alloc ident
  | .browseNext sv releaseContinuationPoint continuationPoint alloc =>
      browseNextSingle sv session releaseContinuationPoint continuationPoint alloc

/-- Every continuation point is available or stored. -/
def Session.Accounted (session : Session) : Prop :=
  session.availableContinuationPoints.toNat + session.continuationPoints.length = 5

/-- The reply says that there is nothing more to ask for. -/
def BrowseReply.Last (reply : BrowseReply) : Prop :=
  reply.statusCode = StatusCode.good ∧ reply.continuationPoint = none

/-- What a BrowseNext leaves of the continuation points: it frees the one that it names if the reply
is the last one, and else it keeps them all. -/
def FreesOne (session : Session) (continuationPoint : Guid) (session' : Session)
    (reply : BrowseReply) : Prop :=
  (reply.Last ∧ ∃ cp, cp.identifier = continuationPoint ∧
      session.continuationPoints.Perm (cp :: session'.continuationPoints) ∧
      session'.availableContinuationPoints.toNat =
        session.availableContinuationPoints.toNat + 1) ∨
    (¬ reply.Last ∧
      session'.continuationPoints.map ContinuationPointEntry.identifier =
        session.continuationPoints.map ContinuationPointEntry.identifier ∧
      session'.availableContinuationPoints = session.availableContinuationPoints)

theorem removeCp_frees {session : Session} (haccounted : session.Accounted)
    {cp : ContinuationPointEntry} {continuationPoint : Guid}
    (hfind : Keyed.find ContinuationPointEntry.identifier session.continuationPoints
      continuationPoint = some cp) :
    session.continuationPoints.Perm (cp :: (removeCp session cp).continuationPoints) ∧
      (removeCp session cp).availableContinuationPoints.toNat =
        session.availableContinuationPoints.toNat + 1 := by
  have hid := Keyed.key_of_find hfind
  subst hid
  have hperm : session.continuationPoints.Perm (cp :: (removeCp session cp).continuationPoints) :=
    Keyed.perm_remove hfind
  refine ⟨hperm, ?_⟩
  have hlength := hperm.length_eq
  rw [List.length_cons] at hlength
  unfold Session.Accounted at haccounted
  rw [removeCp, UInt16.toNat_add, Nat.mod_eq_of_lt]
  · rfl
  · change session.availableContinuationPoints.toNat + 1 < 65536
    omega

theorem browseNextSingle_frees (sv : Server A) (haccounted : session.Accounted)
    (releaseContinuationPoint : Bool) (continuationPoint : Guid) (alloc : BrowseAllocs) :
    let replied := browseNextSingle sv session releaseContinuationPoint continuationPoint alloc
    FreesOne session continuationPoint replied.1 replied.2 := by
  dsimp only
  unfold browseNextSingle
  split
  · exact .inr ⟨fun h => absurd h.1
      (by decide : StatusCode.badContinuationPointInvalid ≠ StatusCode.good), rfl, rfl⟩
  rename_i cp hfind
  have hfrees := removeCp_frees haccounted hfind
  have hid := Keyed.key_of_find hfind
  split
  · exact .inl ⟨⟨rfl, rfl⟩, cp, hid, hfrees⟩
  unfold serviceBrowseSingle
  dsimp only
  split
  · rename_i hbad
    exact .inr ⟨fun h => hbad h.1, rfl, rfl⟩
  split
  · exact .inl ⟨⟨rfl, rfl⟩, cp, hid, hfrees⟩
  · refine .inr ⟨fun h => Option.some_ne_none _ h.2, ?_, rfl⟩
    exact Keyed.map_key_modify (fun _ _ => rfl) _

theorem FreesOne.accounted {session' : Session} {reply : BrowseReply}
    (h : FreesOne session continuationPoint session' reply) (haccounted : session.Accounted) :
    session'.Accounted := by
  unfold Session.Accounted at *
  obtain ⟨-, cp, -, hperm, havailable⟩ | ⟨-, hids, havailable⟩ := h
  · have hlength := hperm.length_eq
    rw [List.length_cons] at hlength
    omega
  · have hlength := congrArg List.length hids
    rw [List.length_map, List.length_map] at hlength
    rw [havailable, hlength, haccounted]

theorem serviceBrowseSingle_accounted (sv : Server A) (haccounted : session.Accounted)
    (descr : BrowseDescription) (maxrefs : UInt32) (alloc : BrowseAllocs) (ident : Guid) :
    (serviceBrowseSingle sv session none descr maxrefs alloc ident).1.Accounted := by
  unfold serviceBrowseSingle
  dsimp only
  split
  · exact haccounted
  split
  · exact haccounted
  split
  · exact haccounted
  · rename_i hfree
    have hfree : ¬ session.availableContinuationPoints ≤ 0 := fun h => hfree (.inl h)
    have hone : (1 : UInt16) ≤ session.availableContinuationPoints := by
      rw [UInt16.le_iff_toNat_le] at hfree ⊢
      exact Nat.not_le.mp hfree
    have hpos := UInt16.le_iff_toNat_le.mp hone
    have hnat : (1 : UInt16).toNat = 1 := rfl
    unfold Session.Accounted at *
    rw [UInt16.toNat_sub_of_le _ _ hone, List.length_cons]
    omega

theorem viewStep_accounted (haccounted : session.Accounted) (event : ViewEvent A) :
    (viewStep session event).1.Accounted := by
  cases event with
  | browse sv descr maxrefs alloc ident =>
    exact serviceBrowseSingle_accounted sv haccounted descr maxrefs alloc ident
  | browseNext sv release continuationPoint alloc =>
    exact FreesOne.accounted (browseNextSingle_frees sv haccounted release continuationPoint alloc)
      haccounted

theorem views_accounted (events : List (ViewEvent A)) : ∀ {session : Session}, session.Accounted →
    (Runs.specRun viewStep session events).1.Accounted := by
  induction events with
  | nil => exact fun h => h
  | cons event events ih => exact fun h => ih (viewStep_accounted h event)

theorem browseNextSingle_release (sv : Server A)
    (hmem : continuationPoint ∈ session.continuationPoints.map ContinuationPointEntry.identifier)
    (alloc : BrowseAllocs) : (browseNextSingle sv session true continuationPoint alloc).2.Last := by
  unfold browseNextSingle
  split
  · rename_i hnone
    exact absurd hmem (Keyed.find_eq_none_iff.mp hnone)
  · rw [if_pos rfl]
    exact ⟨rfl, rfl⟩

section Witnesses

/-- An object with `n` references to itself, all of one type. -/
def selfReferencing (n : Nat) : Node Unit where
  nodeId := ns0 100
  nodeClass := .object
  browseName := ⟨0, [100]⟩
  displayName := ⟨[], []⟩
  isAbstract := false
  attributes := ()
  references := List.replicate n ⟨ns0 35, false, .here (ns0 100)⟩

def oneObject (n : Nat) : Server Unit := ⟨[selfReferencing n], 2, 0⟩

def wholeObject : BrowseDescription := ⟨ns0 100, browseDirectionBoth, nullId, false, 0, 63⟩

def someIdent : Guid := ⟨1, 2, 3, ⟨#[0, 0, 0, 0, 0, 0, 0, 4], rfl⟩⟩

example : (browsePages (oneObject 5) Session.init 3 wholeObject 2 someIdent).map
    (fun (pages, session) => (pages.map List.length, session)) =
      some ([2, 2, 1], Session.init) := by
  decide +kernel

theorem listing_oneObject (n : Nat) :
    ∃ results : List ReferenceDescription, results.length = n ∧
      Listing (oneObject n) wholeObject results := by
  have hnode : (oneObject n).get (ns0 100) = some (selfReferencing n) := rfl
  have hbrowse : ∀ maxrefs c, browse (oneObject n) wholeObject maxrefs c true =
      browseRelevantReferences (oneObject n) none wholeObject maxrefs c true := by
    intro maxrefs c
    rw [browse, if_neg (by decide), if_pos (by decide)]
  refine ⟨_, ?_, fun maxrefs c => hbrowse maxrefs c ▸
    browseRelevantReferences_page none hnode maxrefs c⟩
  have hrelevant : returnRelevantNode (oneObject n) wholeObject none
      ⟨ns0 35, false, .here (ns0 100)⟩ = some (selfReferencing n) := by
    rw [returnRelevantNode, if_neg (by decide), if_neg (by decide), if_neg (by decide)]
    rfl
  rw [relevantReferences, selfReferencing,
    List.filterMap_replicate_of_some (by rw [hrelevant]; rfl), List.length_replicate]

theorem nextPages_wraps {results : List ReferenceDescription} (hlisting : Listing sv descr results)
    (hsize : results.length = 2 ^ 32 + 1) (ident : Guid) (available : UInt16)
    (rest : List ContinuationPointEntry) : ∀ (fuel : Nat) (c : UInt32), c = 0 ∨ c = 2 ^ 31 →
      nextPages sv fuel ⟨available, ⟨ident, descr, c, 2 ^ 31⟩ :: rest⟩ (some ident) = none := by
  have hmax : (2 ^ 31 : UInt32).toNat = 2 ^ 31 := rfl
  intro fuel
  induction fuel with
  | zero => exact fun _ _ => rfl
  | succ fuel ih =>
    intro c hc
    have hleft : 2 ^ 31 < (results.drop c.toNat).length := by
      rw [List.length_drop, hsize]
      obtain rfl | rfl := hc
      · decide
      · decide
    have hmore : ¬ (browse sv descr (2 ^ 31) c true).2 = true := by
      intro hdone
      obtain h | h := (hlisting (2 ^ 31) c).2.1 hdone
      · exact absurd h (by decide)
      · rw [hmax] at h
        omega
    have hnext := @browseNextSingle_listing _ _ _ _ hlisting ⟨ident, descr, c, 2 ^ 31⟩ rfl available
      rest
    dsimp only at hnext
    have hlength : ((results.drop c.toNat).take (2 ^ 31)).length = 2 ^ 31 := by
      rw [List.length_take, Nat.min_eq_left (Nat.le_of_lt hleft)]
    rw [if_neg hmore, if_neg (by decide), hmax, hlength] at hnext
    have hindex : c + UInt32.ofNat (2 ^ 31) = 0 ∨ c + UInt32.ofNat (2 ^ 31) = 2 ^ 31 := by
      obtain rfl | rfl := hc
      · exact .inr (by decide)
      · exact .inl (by decide)
    rw [nextPages, hnext]
    dsimp only
    rw [ih _ hindex]
    rfl

end Witnesses

end FactoryThing.AddressSpace
