import FactoryThing.Network.TcpLayer

/-!
# Connections, jobs and descriptors in step

What holds after every run of the layer: how the jobs report each connection, and how often its
descriptor is closed. The removal of closed connections relies on the descriptor being closed
already, which holds only after a failing send, and it does not look at the connections it moves.
-/

namespace FactoryThing.Network

open Connections (ConnectionState)

/-- The count is the number of jobs in the array, which come first. -/
def Returned.Fits (returned : Returned) : Prop :=
  ∃ (written : List Job) (k : Nat), returned.count = written.length ∧
    returned.jobs = written.map some ++ List.replicate k none

def jobsOf (c : Nat) (history : List Job) : List Job :=
  history.filter fun job => job.connection == c

/-- Whether the layer still has the connection. -/
def Layer.has (layer : Layer) (c : Nat) : Prop :=
  c ∈ layer.mappings.map ConnectionMapping.connection

/-- The jobs only hand over what has been received. -/
def OnlyMessages (jobs : List Job) : Prop :=
    ∀ job ∈ jobs, ∃ c message, job = .binaryMessage c message

/-- A receive that was interrupted, or would block, is no cause. -/
def Cause.Genuine (cause : Cause) : Prop :=
  ∀ errno, cause = .received (.failed errno) → errno ≠ eintr ∧ errno ≠ eagain ∧ errno ≠ ewouldblock

/-- The connections, the jobs so far and the descriptors are in step. -/
structure InStep (layer : Layer) (history : List Job) : Prop where
  reported : ∀ c < layer.nextConnection,
    (layer.has c → OnlyMessages (jobsOf c history)) ∧
      (¬ layer.has c → ∃ messages, OnlyMessages messages ∧
        jobsOf c history = messages ++ [.detachConnection c, .freeConnection c])
  unknown : ∀ job ∈ history, job.connection < layer.nextConnection
  closedOnce : ∀ c < layer.nextConnection, (layer.connectionAt c).closings.length ≤ 1
  closedAtFree : ∀ c < layer.nextConnection, .freeConnection c ∈ history →
    (layer.connectionAt c).closings.length = 1
  genuine : ∀ c < layer.nextConnection, ∀ cause ∈ (layer.connectionAt c).closings, cause.Genuine

/-- The descriptor that `accept` returns is not open, and the server closes and sends on connections
there are. -/
def Possible (layer : Layer) : TcpStep → Prop
  | .getJobs os =>
      os.accept ≠ layer.serversockfd ∧
        ∀ c < layer.nextConnection, (layer.connectionAt c).closings = [] →
          os.accept ≠ (layer.connectionAt c).sockfd
  | .close c => c < layer.nextConnection
  | .write c _ _ => c < layer.nextConnection

instance (layer : Layer) : ∀ e, Decidable (Possible layer e)
  | .getJobs _ => inferInstanceAs (Decidable (_ ∧ _))
  | .close _ => inferInstanceAs (Decidable (_ < _))
  | .write _ _ _ => inferInstanceAs (Decidable (_ < _))

/-- A send fails before all bytes are written. -/
def sendFails (length : Nat) : Nat → List Sent → Bool
  | _, [] => false
  | nWritten, .failed errno :: rest =>
      if errno ≠ eintr ∧ errno ≠ eagain then true else sendFails length nWritten rest
  | nWritten, .wrote n :: rest =>
      if nWritten + n < length then sendFails length (nWritten + n) rest else false

/-- When `getJobs` is called, the closed connections whose descriptor is still open are those that
the compaction moves, and no receive is interrupted; no send fails on a descriptor that is
closed. -/
def Undisturbed (layer : Layer) : TcpStep → Prop
  | .getJobs os =>
      (∀ q mapping, layer.mappings[q]? = some mapping → layer.isClosed mapping →
        ((layer.connectionAt mapping.connection).closings = [] ↔
          Compaction.Moved layer.isClosed layer.mappings q)) ∧
        ∀ mapping ∈ layer.mappings, os.readable mapping.sockfd ∨ os.failed mapping.sockfd →
          os.recv mapping.connection ≠ .failed eintr
  | .close _ => True
  | .write c length results =>
      (layer.connectionAt c).closings = [] ∨ sendFails length 0 results = false

/-! ## The invariant -/

/-- The connections the layer still has are different ones and have the descriptors of their
mappings; an open connection has an open descriptor, and one that is gone a closed one. -/
structure Inv (layer : Layer) (history : List Job) : Prop extends InStep layer history where
  nodup : (layer.mappings.map ConnectionMapping.connection).Nodup
  known : ∀ mapping ∈ layer.mappings, mapping.connection < layer.nextConnection ∧
    mapping.sockfd = (layer.connectionAt mapping.connection).sockfd
  opened : ∀ c < layer.nextConnection, (layer.connectionAt c).state ≠ .closed →
    (layer.connectionAt c).closings = []
  gone : ∀ c < layer.nextConnection, ¬ layer.has c →
    (layer.connectionAt c).state = .closed ∧ (layer.connectionAt c).closings.length = 1

variable {layer : Layer} {history : List Job} {c : Nat}

theorem Inv.start (serversockfd : Int) : Inv (Layer.start serversockfd) [] where
  reported _ hc := absurd hc (Nat.not_lt_zero _)
  unknown _ hjob := absurd hjob List.not_mem_nil
  closedOnce _ hc := absurd hc (Nat.not_lt_zero _)
  closedAtFree _ hc := absurd hc (Nat.not_lt_zero _)
  genuine _ hc := absurd hc (Nat.not_lt_zero _)
  nodup := List.nodup_nil
  known _ hmapping := absurd hmapping List.not_mem_nil
  opened _ hc := absurd hc (Nat.not_lt_zero _)
  gone _ hc := absurd hc (Nat.not_lt_zero _)

theorem jobsOf_append (c : Nat) (history jobs : List Job) :
    jobsOf c (history ++ jobs) = jobsOf c history ++ jobsOf c jobs := List.filter_append _ _

theorem Inv.perm (h : Inv layer history) {mappings : List ConnectionMapping}
    (hperm : layer.mappings.Perm mappings) : Inv { layer with mappings := mappings } history := by
  have hhas : ∀ c, Layer.has { layer with mappings := mappings } c ↔ layer.has c :=
    fun c => ((hperm.map _).mem_iff (a := c)).symm
  refine ⟨⟨fun c hc => ?_, h.unknown, h.closedOnce, h.closedAtFree, h.genuine⟩, ?_, ?_,
    h.opened, ?_⟩
  · rw [hhas]
    exact h.reported c hc
  · exact (hperm.map _).nodup_iff.mp h.nodup
  · exact fun mapping hin => h.known mapping (hperm.mem_iff.mpr hin)
  · intro c hc
    rw [hhas]
    exact h.gone c hc

theorem Inv.setConnection (h : Inv layer history) {conn : Connection}
    (hsockfd : conn.sockfd = (layer.connectionAt c).sockfd)
    (hstate : (layer.connectionAt c).state = .closed → conn.state = .closed)
    (hopened : conn.state ≠ .closed → conn.closings = [])
    (hclosings : conn.closings = (layer.connectionAt c).closings ∨
      (layer.connectionAt c).closings = [] ∧ layer.has c ∧
        ∃ cause : Cause, cause.Genuine ∧ conn.closings = [cause]) :
    Inv (layer.setConnection c conn) history := by
  have hother : ∀ d, d ≠ c → (layer.setConnection c conn).connectionAt d = layer.connectionAt d :=
    fun d hd => Function.update_of_ne hd _ _
  have hself : (layer.setConnection c conn).connectionAt c = conn := Function.update_self _ _ _
  refine ⟨⟨h.reported, h.unknown, fun d hd => ?_, fun d hd hfree => ?_, fun d hd => ?_⟩, h.nodup,
    fun mapping hin => ⟨(h.known mapping hin).1, ?_⟩, fun d hd => ?_, fun d hd hgone => ?_⟩
  · by_cases hdc : d = c
    · subst hdc
      rw [hself]
      obtain heq | ⟨-, -, cause, -, heq⟩ := hclosings
      · rw [heq]
        exact h.closedOnce d hd
      · rw [heq]
        exact Nat.le_refl 1
    · rw [hother d hdc]
      exact h.closedOnce d hd
  · by_cases hdc : d = c
    · subst hdc
      rw [hself]
      obtain heq | ⟨-, -, cause, -, heq⟩ := hclosings
      · rw [heq]
        exact h.closedAtFree d hd hfree
      · rw [heq]
        rfl
    · rw [hother d hdc]
      exact h.closedAtFree d hd hfree
  · by_cases hdc : d = c
    · subst hdc
      rw [hself]
      obtain heq | ⟨-, -, cause, hgenuine, heq⟩ := hclosings
      · rw [heq]
        exact h.genuine d hd
      · rw [heq]
        exact fun cause' hcause => List.mem_singleton.mp hcause ▸ hgenuine
    · rw [hother d hdc]
      exact h.genuine d hd
  · by_cases hdc : mapping.connection = c
    · rw [(h.known mapping hin).2, hdc, hself, hsockfd]
    · rw [hother _ hdc]
      exact (h.known mapping hin).2
  · by_cases hdc : d = c
    · subst hdc
      rw [hself]
      exact hopened
    · rw [hother d hdc]
      exact h.opened d hd
  · have hgone' := h.gone d hd hgone
    by_cases hdc : d = c
    · subst hdc
      rw [hself]
      refine ⟨hstate hgone'.1, ?_⟩
      obtain heq | ⟨-, hhas, -⟩ := hclosings
      · rw [heq]
        exact hgone'.2
      · exact absurd hhas hgone
    · rw [hother d hdc]
      exact hgone'

theorem Inv.message (h : Inv layer history) (hc : layer.has c) (message : List UInt8) :
    Inv layer (history ++ [.binaryMessage c message]) := by
  obtain ⟨mapping, hin, rfl⟩ := List.mem_map.mp hc
  refine ⟨⟨fun d hd => ⟨fun hhas => ?_, fun hhas => ?_⟩, fun job hjob => ?_, h.closedOnce,
    fun d hd hfree => ?_, h.genuine⟩, h.nodup, h.known, h.opened, h.gone⟩
  · rw [jobsOf_append]
    intro job hjob
    obtain hjob | hjob := List.mem_append.mp hjob
    · exact (h.reported d hd).1 hhas job hjob
    · exact ⟨_, _, List.mem_singleton.mp (List.mem_filter.mp hjob).1⟩
  · obtain ⟨messages, hmessages, hjobs⟩ := (h.reported d hd).2 hhas
    have hne : mapping.connection ≠ d := fun heq => hhas (heq ▸ hc)
    refine ⟨messages, hmessages, ?_⟩
    rw [jobsOf_append, hjobs, jobsOf]
    simp [Job.connection, hne]
  · obtain hjob | hjob := List.mem_append.mp hjob
    · exact h.unknown job hjob
    · rw [List.mem_singleton.mp hjob]
      exact (h.known mapping hin).1
  · obtain hfree | hfree := List.mem_append.mp hfree
    · exact h.closedAtFree d hd hfree
    · cases List.mem_singleton.mp hfree

/-- The two jobs for a connection that is removed. -/
def removalJobs (c : Nat) : List Job := [.detachConnection c, .freeConnection c]

theorem Inv.remove {mapping : ConnectionMapping} {mappings : List ConnectionMapping}
    (h : Inv layer history) (hperm : layer.mappings.Perm (mapping :: mappings))
    (hstate : (layer.connectionAt mapping.connection).state = .closed)
    (hclosings : (layer.connectionAt mapping.connection).closings.length = 1) :
    Inv { layer with mappings := mappings } (history ++ removalJobs mapping.connection) := by
  have h' := h.perm hperm
  have hnodup : mapping.connection ∉ mappings.map ConnectionMapping.connection ∧
      (mappings.map ConnectionMapping.connection).Nodup := List.nodup_cons.mp h'.nodup
  have hmapped : layer.has mapping.connection :=
    (hperm.map _).mem_iff.mpr (List.mem_map_of_mem List.mem_cons_self)
  have hhas : ∀ d, d ≠ mapping.connection →
      (Layer.has { layer with mappings := mappings } d ↔ layer.has d) := by
    intro d hd
    rw [Layer.has, Layer.has, (hperm.map _).mem_iff, List.map_cons, List.mem_cons]
    exact (or_iff_right hd).symm
  have hother : ∀ d, d ≠ mapping.connection → jobsOf d (removalJobs mapping.connection) = [] := by
    intro d hd
    simp [jobsOf, removalJobs, Job.connection, Ne.symm hd]
  refine ⟨⟨fun d hd => ?_, fun job hjob => ?_, h.closedOnce, fun d hd hfree => ?_, h.genuine⟩,
    hnodup.2, fun m hm => h'.known m (List.mem_cons_of_mem _ hm), h.opened, fun d hd hgone => ?_⟩
  · rw [jobsOf_append]
    by_cases hdc : d = mapping.connection
    · subst hdc
      refine ⟨fun hhas => absurd hhas hnodup.1, fun _ => ⟨_, (h.reported _ hd).1 hmapped, ?_⟩⟩
      simp [jobsOf, removalJobs, Job.connection]
    · rw [hother d hdc, List.append_nil, hhas d hdc]
      exact h.reported d hd
  · obtain hjob | hjob := List.mem_append.mp hjob
    · exact h.unknown job hjob
    · have hconnection : job.connection = mapping.connection := by
        simp only [removalJobs, List.mem_cons, List.not_mem_nil, or_false] at hjob
        obtain rfl | rfl := hjob <;> rfl
      rw [hconnection]
      exact (h'.known mapping List.mem_cons_self).1
  · obtain hfree | hfree := List.mem_append.mp hfree
    · exact h.closedAtFree d hd hfree
    · simp only [removalJobs, List.mem_cons, List.not_mem_nil, or_false] at hfree
      obtain hfree | hfree := hfree
      · cases hfree
      · cases hfree
        exact hclosings
  · by_cases hdc : d = mapping.connection
    · exact hdc ▸ ⟨hstate, hclosings⟩
    · exact h.gone d hd (fun hhas' => hgone ((hhas d hdc).mpr hhas'))

theorem connectionAt_add_of_lt (newsockfd : Int) {d : Nat} (hd : d < layer.nextConnection) :
    (layer.add newsockfd).connectionAt d = layer.connectionAt d :=
  Function.update_of_ne (Nat.ne_of_lt hd) _ _

theorem connectionAt_add_self (layer : Layer) (newsockfd : Int) :
    (layer.add newsockfd).connectionAt layer.nextConnection = ⟨newsockfd, .opening, []⟩ :=
  Function.update_self _ _ _

theorem Inv.add (h : Inv layer history) (newsockfd : Int) : Inv (layer.add newsockfd) history := by
  have hother : ∀ d < layer.nextConnection,
      (layer.add newsockfd).connectionAt d = layer.connectionAt d :=
    fun d hd => connectionAt_add_of_lt newsockfd hd
  have hself := connectionAt_add_self layer newsockfd
  have hfresh : layer.nextConnection ∉ layer.mappings.map ConnectionMapping.connection := by
    intro hin
    obtain ⟨mapping, hin, heq⟩ := List.mem_map.mp hin
    exact absurd (h.known mapping hin).1 (by omega)
  have hhas : ∀ d, (layer.add newsockfd).has d ↔ layer.has d ∨ d = layer.nextConnection := by
    simp [Layer.has, Layer.add]
  have hnone : jobsOf layer.nextConnection history = [] := by
    refine List.filter_eq_nil_iff.mpr fun job hjob => ?_
    have := h.unknown job hjob
    simp only [beq_iff_eq]
    omega
  have hsplit : ∀ d < (layer.add newsockfd).nextConnection,
      d < layer.nextConnection ∨ d = layer.nextConnection :=
    fun d hd => Nat.lt_or_eq_of_le (Nat.le_of_lt_succ hd)
  refine ⟨⟨fun d hd => ?_, fun job hjob => Nat.lt_succ_of_lt (h.unknown job hjob), fun d hd => ?_,
    fun d hd hfree => ?_, fun d hd => ?_⟩, ?_, fun mapping hin => ?_, fun d hd => ?_,
    fun d hd hgone => ?_⟩
  · obtain hlt | rfl := hsplit d hd
    · rw [hhas, or_iff_left (Nat.ne_of_lt hlt)]
      exact h.reported d hlt
    · refine ⟨fun _ => ?_, fun hgone => absurd ((hhas _).mpr (Or.inr rfl)) hgone⟩
      rw [hnone]
      exact fun job hjob => absurd hjob List.not_mem_nil
  · obtain hlt | rfl := hsplit d hd
    · rw [hother d hlt]
      exact h.closedOnce d hlt
    · rw [hself]
      exact Nat.zero_le 1
  · have hlt : d < layer.nextConnection := h.unknown _ hfree
    rw [hother d hlt]
    exact h.closedAtFree d hlt hfree
  · obtain hlt | rfl := hsplit d hd
    · rw [hother d hlt]
      exact h.genuine d hlt
    · rw [hself]
      exact fun cause hcause => absurd hcause List.not_mem_nil
  · rw [Layer.add, List.map_append, List.nodup_append]
    refine ⟨h.nodup, List.nodup_singleton _, fun a ha b hb heq => hfresh ?_⟩
    have hb' : b = layer.nextConnection := List.mem_singleton.mp hb
    exact hb' ▸ heq ▸ ha
  · obtain hin | hin := List.mem_append.mp hin
    · obtain ⟨hlt, hsockfd⟩ := h.known mapping hin
      exact ⟨Nat.lt_succ_of_lt hlt, by rw [hother _ hlt, hsockfd]⟩
    · rw [List.mem_singleton.mp hin]
      exact ⟨Nat.lt_succ_self _, by rw [hself]⟩
  · obtain hlt | rfl := hsplit d hd
    · rw [hother d hlt]
      exact h.opened d hlt
    · rw [hself]
      exact fun _ => rfl
  · obtain hlt | rfl := hsplit d hd
    · rw [hother d hlt]
      exact h.gone d hlt fun hhas' => hgone ((hhas d).mpr (Or.inl hhas'))
    · exact absurd ((hhas _).mpr (Or.inr rfl)) hgone

theorem Inv.close (h : Inv layer history) (c : Nat) :
    Inv (layer.setConnection c (closeConnection (layer.connectionAt c))) history := by
  have hkept : ∀ conn, (closeConnection conn).sockfd = conn.sockfd ∧
      (closeConnection conn).state = .closed ∧
        (closeConnection conn).closings = conn.closings := by
    intro conn
    unfold closeConnection
    split
    · exact ⟨rfl, ‹_›, rfl⟩
    · exact ⟨rfl, rfl, rfl⟩
  obtain ⟨hsockfd, hstate, hclosings⟩ := hkept (layer.connectionAt c)
  exact h.setConnection hsockfd (fun _ => hstate) (fun hopen => absurd hstate hopen)
    (Or.inl hclosings)

theorem socketWrite_eq (conn : Connection) (length : Nat) :
    ∀ (results : List Sent) (nWritten : Nat),
      (sendFails length nWritten results = false ∧
        (socketWrite conn length nWritten results).1 = conn) ∨
      ∃ errno, errno ≠ eintr ∧ sendFails length nWritten results = true ∧
        (socketWrite conn length nWritten results).1 =
          socketClose (closeConnection conn) (.sendFailed errno) := by
  intro results
  induction results with
  | nil => exact fun _ => Or.inl ⟨rfl, rfl⟩
  | cons result results ih =>
    intro nWritten
    cases result with
    | wrote n =>
      unfold sendFails socketWrite
      split
      · exact ih _
      · exact Or.inl ⟨rfl, rfl⟩
    | failed errno =>
      unfold sendFails socketWrite
      split
      · rename_i hfatal
        exact Or.inr ⟨errno, hfatal.1, rfl, rfl⟩
      · exact ih _

theorem Inv.write (h : Inv layer history) (hc : c < layer.nextConnection) {length : Nat}
    {results : List Sent} (hopen : (layer.connectionAt c).closings = [] ∨
      sendFails length 0 results = false) :
    Inv (layer.setConnection c (socketWrite (layer.connectionAt c) length 0 results).1)
      history := by
  obtain ⟨-, heq⟩ | ⟨errno, -, hfails, heq⟩ :=
    socketWrite_eq (layer.connectionAt c) length results 0
  · rw [heq]
    exact h.setConnection rfl id (h.opened c hc) (Or.inl rfl)
  · have hclosings : (layer.connectionAt c).closings = [] :=
      hopen.resolve_right (by simp [hfails])
    have hhas : layer.has c := by
      by_contra hgone
      have := (h.gone c hc hgone).2
      simp [hclosings] at this
    have hkept : (closeConnection (layer.connectionAt c)).sockfd = (layer.connectionAt c).sockfd ∧
        (closeConnection (layer.connectionAt c)).closings = [] := by
      unfold closeConnection
      split <;> exact ⟨rfl, hclosings⟩
    rw [heq]
    refine h.setConnection hkept.1 (fun _ => rfl) (fun hne => absurd rfl hne)
      (Or.inr ⟨hclosings, hhas, .sendFailed errno, ?_, ?_⟩)
    · exact fun _ hcause => nomatch hcause
    · rw [socketClose, hkept.2, List.nil_append]

/-- The array with the jobs written so far and room for `k` more. -/
def filled (written : List Job) (k : Nat) : Jobs := written.map some ++ List.replicate k none

theorem write_filled (written : List Job) (k : Nat) (job : Job) :
    (filled written (k + 1)).write written.length job = .ok (filled (written ++ [job]) k) := by
  rw [Jobs.write, if_pos (by simp [filled]), filled, filled,
    List.set_append_right _ _ (by simp)]
  simp [List.replicate_succ]

theorem taken_filled (written : List Job) (k : Nat) :
    (Returned.mk written.length (filled written k)).taken = written := by
  unfold Returned.taken filled
  simp [List.filterMap_map]

theorem removeClosedConnections_eq (fuel : Nat) :
    ∀ (i : Nat) (layer : Layer) (written : List Job) (k : Nat) {left gone : List ConnectionMapping},
      Compaction.compactFrom layer.isClosed fuel i layer.mappings = (left, gone) →
        2 * gone.length ≤ k →
          removeClosedConnections fuel i layer written.length (filled written k) =
            .ok ({ layer with mappings := left },
              (written ++ gone.flatMap fun mapping => removalJobs mapping.connection).length,
              filled (written ++ gone.flatMap fun mapping => removalJobs mapping.connection)
                (k - 2 * gone.length)) := by
  induction fuel with
  | zero =>
    rintro i layer written k left gone hscan -
    cases hscan
    simp [removeClosedConnections]
  | succ fuel ih =>
    intro i layer written k left gone hscan hroom
    rw [Compaction.compactFrom] at hscan
    rw [removeClosedConnections]
    cases hat : layer.mappings[i]? with
    | none =>
      rw [hat] at hscan
      cases hscan
      simp
    | some mapping =>
      rw [hat] at hscan
      dsimp only at hscan ⊢
      by_cases hclosed : layer.isClosed mapping = true
      · rw [if_pos hclosed] at hscan
        obtain ⟨rest, hscan'⟩ : ∃ rest,
            Compaction.compactFrom layer.isClosed fuel (i + 1)
              (SwapRemove.removeAt layer.mappings i) = (left, rest) ∧ gone = mapping :: rest := by
          cases hscan
          exact ⟨_, rfl, rfl⟩
        obtain ⟨hscan', rfl⟩ := hscan'
        rw [List.length_cons] at hroom
        obtain ⟨k, rfl⟩ : ∃ k', k = k' + 1 + 1 := ⟨k - 2, by omega⟩
        have hrest := ih (i + 1) (layer.removeMapping i)
          (written ++ removalJobs mapping.connection) k hscan' (by omega)
        rw [if_neg (not_not_intro hclosed), write_filled]
        dsimp only
        have hwrite := write_filled (written ++ [.detachConnection mapping.connection]) k
          (.freeConnection mapping.connection)
        rw [List.length_append, List.length_singleton, List.append_assoc] at hwrite
        rw [hwrite]
        dsimp only
        have hlength : (written ++ removalJobs mapping.connection).length = written.length + 2 := by
          simp [removalJobs]
        rw [hlength] at hrest
        refine hrest.trans ?_
        have hleft : k + 1 + 1 - 2 * (mapping :: rest).length = k - 2 * rest.length := by
          rw [List.length_cons]
          omega
        rw [hleft, List.flatMap_cons, List.append_assoc]
      · rw [if_neg hclosed] at hscan
        rw [if_pos hclosed]
        exact ih (i + 1) layer written k hscan hroom

theorem Inv.removeAll {left : List ConnectionMapping} (gone : List ConnectionMapping) :
    ∀ {layer : Layer} {history : List Job}, Inv layer history →
      layer.mappings.Perm (left ++ gone) →
      (∀ mapping ∈ gone, (layer.connectionAt mapping.connection).state = .closed ∧
        (layer.connectionAt mapping.connection).closings.length = 1) →
        Inv { layer with mappings := left }
          (history ++ gone.flatMap fun mapping => removalJobs mapping.connection) := by
  induction gone with
  | nil =>
    intro layer history h hperm _
    rw [List.append_nil] at hperm
    rw [List.flatMap_nil, List.append_nil]
    exact h.perm hperm
  | cons mapping gone ih =>
    intro layer history h hperm hclosed
    obtain ⟨hstate, hclosings⟩ := hclosed mapping List.mem_cons_self
    have h' := h.remove (hperm.trans List.perm_middle) hstate hclosings
    have hrest := ih h' (.refl _) fun m hm => hclosed m (List.mem_cons_of_mem _ hm)
    rw [List.flatMap_cons, ← List.append_assoc]
    exact hrest

theorem socketRecv_cases (conn : Connection) {ret : Received} (hret : ret ≠ .failed eintr) :
    (∃ buf, socketRecv conn 0 true ret = (conn, StatusCode.good, buf)) ∨
      (Cause.received ret).Genuine ∧
        socketRecv conn 0 true ret =
          (socketClose conn (.received ret), StatusCode.badConnectionClosed, []) := by
  unfold socketRecv
  rw [if_neg (by simp)]
  cases ret with
  | data bytes =>
    cases bytes with
    | nil => exact Or.inr ⟨fun _ hcause => (nomatch hcause), rfl⟩
    | cons b bytes => exact Or.inl ⟨b :: bytes, rfl⟩
  | failed errno =>
    have hintr : errno ≠ eintr := fun heq => hret (heq ▸ rfl)
    by_cases hagain : errno = eagain ∨ errno = ewouldblock
    · exact Or.inl ⟨[], by simp [hintr, hagain]⟩
    · refine Or.inr ⟨fun e hcause => ?_, by simp [hintr, hagain]⟩
      cases hcause
      exact ⟨hintr, fun h => hagain (Or.inl h), fun h => hagain (Or.inr h)⟩

theorem Inv.closeAndRemove (h : Inv layer history) {i : Nat} {mapping : ConnectionMapping}
    (hat : layer.mappings[i]? = some mapping)
    (hopen : (layer.connectionAt mapping.connection).closings = []) {cause : Cause}
    (hgenuine : cause.Genuine) :
    Inv ((layer.setConnection mapping.connection
        (socketClose (layer.connectionAt mapping.connection) cause)).removeMapping i)
      (history ++ removalJobs mapping.connection) := by
  have hhas : layer.has mapping.connection := List.mem_map_of_mem (List.mem_of_getElem? hat)
  have hself : (layer.setConnection mapping.connection
      (socketClose (layer.connectionAt mapping.connection) cause)).connectionAt mapping.connection =
        socketClose (layer.connectionAt mapping.connection) cause := Function.update_self _ _ _
  have hclosings : (socketClose (layer.connectionAt mapping.connection) cause).closings =
      [cause] := by
    rw [socketClose, hopen, List.nil_append]
  have hclosed : Inv (layer.setConnection mapping.connection
      (socketClose (layer.connectionAt mapping.connection) cause)) history :=
    h.setConnection rfl (fun _ => rfl) (fun hne => absurd rfl hne)
      (Or.inr ⟨hopen, hhas, cause, hgenuine, hclosings⟩)
  have hperm := SwapRemove.drop_removeAt hat (Nat.zero_le i)
  rw [List.drop_zero, List.drop_zero] at hperm
  refine hclosed.remove hperm ?_ ?_
  · rw [hself]
    rfl
  · rw [hself, hclosings]
    rfl

theorem readSockets_spec (os : Answers) (isSet : Int → Bool) (resultsize : Int) (history : List Job)
    (fuel : Nat) :
    ∀ (i : Nat) (layer : Layer) (totalJobs j : Nat) (written : List Job) (k : Nat),
      Inv layer (history ++ written) → totalJobs + j = written.length →
      (∀ mapping ∈ layer.mappings, (layer.connectionAt mapping.connection).closings = []) →
      (∀ mapping ∈ layer.mappings, isSet mapping.sockfd = true →
        os.recv mapping.connection ≠ .failed eintr) →
      2 * ((layer.mappings.drop i).countP fun mapping => isSet mapping.sockfd) ≤ k →
        ∃ layer' written' k', readSockets os isSet resultsize fuel i layer totalJobs j
            (filled written k) = .ok (layer', written'.length, filled written' k') ∧
          Inv layer' (history ++ written') := by
  induction fuel with
  | zero =>
    intro i layer totalJobs j written k h hcount _ _ _
    exact ⟨layer, written, k, by rw [readSockets, hcount], h⟩
  | succ fuel ih =>
    intro i layer totalJobs j written k h hcount hopen hrecv hroom
    rw [readSockets]
    cases hat : layer.mappings[i]? with
    | none => exact ⟨layer, written, k, by rw [hcount], h⟩
    | some mapping =>
      dsimp only
      have hin : mapping ∈ layer.mappings := List.mem_of_getElem? hat
      have hlt : i < layer.mappings.length := (List.getElem?_eq_some_iff.mp hat).1
      have hdrop : layer.mappings.drop i = mapping :: layer.mappings.drop (i + 1) := by
        rw [List.drop_eq_getElem_cons hlt, (List.getElem?_eq_some_iff.mp hat).2]
      split
      · exact ⟨layer, written, k, by rw [hcount], h⟩
      split
      · refine ih (i + 1) layer totalJobs j written k h hcount hopen hrecv ?_
        rw [hdrop, List.countP_cons] at hroom
        omega
      rename_i hset
      have hset : isSet mapping.sockfd = true := not_not.mp hset
      have hcountP : (layer.mappings.drop i).countP (fun mapping => isSet mapping.sockfd) =
          (layer.mappings.drop (i + 1)).countP (fun mapping => isSet mapping.sockfd) + 1 := by
        rw [hdrop]
        exact List.countP_cons_of_pos hset
      have hhas : layer.has mapping.connection := List.mem_map_of_mem hin
      obtain ⟨buf, hgood⟩ | ⟨hgenuine, hclosed⟩ :=
        socketRecv_cases (layer.connectionAt mapping.connection) (hrecv mapping hin hset)
      · -- a message, or nothing yet
        obtain ⟨k, rfl⟩ : ∃ k', k = k' + 1 := ⟨k - 1, by omega⟩
        have hsame : layer.setConnection mapping.connection
            (layer.connectionAt mapping.connection) = layer := by
          simp [Layer.setConnection]
        have hmessage := h.message hhas buf
        rw [List.append_assoc] at hmessage
        rw [hgood, hcount, write_filled]
        dsimp only
        rw [if_pos rfl, hsame]
        exact ih (i + 1) layer totalJobs (j + 1) _ k hmessage (by simp; omega) hopen hrecv
          (by omega)
      · -- the connection is closed, and removed
        obtain ⟨k, rfl⟩ : ∃ k', k = k' + 1 + 1 := ⟨k - 2, by omega⟩
        have hremoved := h.closeAndRemove hat (hopen mapping hin) hgenuine
        rw [List.append_assoc] at hremoved
        have hperm := SwapRemove.drop_removeAt hat (Nat.zero_le i)
        rw [List.drop_zero, List.drop_zero] at hperm
        have hleft : ∀ m ∈ SwapRemove.removeAt layer.mappings i,
            m ∈ layer.mappings ∧ m.connection ≠ mapping.connection := by
          intro m hm
          have hnodup := (hperm.map ConnectionMapping.connection).nodup_iff.mp h.nodup
          refine ⟨hperm.mem_iff.mpr (List.mem_cons_of_mem _ hm), fun heq => ?_⟩
          exact (List.nodup_cons.mp hnodup).1 (heq ▸ List.mem_map_of_mem hm)
        have hrest : ((SwapRemove.removeAt layer.mappings i).drop (i + 1)).countP
            (fun m => isSet m.sockfd) ≤
              (layer.mappings.drop (i + 1)).countP fun m => isSet m.sockfd := by
          have hcount' := (SwapRemove.drop_removeAt hat (Nat.le_refl i)).countP_eq
            fun m => isSet m.sockfd
          simp only [List.countP_cons, hset, if_true] at hcount'
          have hsub := (List.drop_sublist_drop_left (SwapRemove.removeAt layer.mappings i)
            (Nat.le_add_right i 1)).countP_le (p := fun m => isSet m.sockfd)
          omega
        have hdetach := write_filled written (k + 1) (.detachConnection mapping.connection)
        have hfree := write_filled (written ++ [.detachConnection mapping.connection]) k
          (.freeConnection mapping.connection)
        rw [List.length_append, List.length_singleton, List.append_assoc] at hfree
        rw [hclosed, hcount, hdetach]
        dsimp only
        rw [if_neg (by decide), if_pos rfl, show totalJobs + 1 + j = written.length + 1 by omega,
          hfree]
        refine ih (i + 1) _ (totalJobs + 1) (j + 1) _ k hremoved ?_ ?_ ?_ ?_
        · simp
          omega
        · intro m hm
          obtain ⟨hold, hne⟩ := hleft m hm
          exact (congrArg Connection.closings (Function.update_of_ne hne _ _)).trans (hopen m hold)
        · exact fun m hm => hrecv m (hleft m hm).1
        · exact (Nat.mul_le_mul_left 2 hrest).trans (by omega)

/-- Connections that are ready to be read: their descriptors are open, and of those in the sets
there are no more than `n`. -/
structure Ready (isSet : Int → Bool) (os : Answers) (n : Nat) (layer : Layer)
    (history : List Job) : Prop where
  inv : Inv layer history
  opened : ∀ mapping ∈ layer.mappings, (layer.connectionAt mapping.connection).closings = []
  recv : ∀ mapping ∈ layer.mappings, isSet mapping.sockfd = true →
    os.recv mapping.connection ≠ .failed eintr
  room : (layer.mappings.countP fun mapping => isSet mapping.sockfd) ≤ n

theorem Ready.acceptConnection {isSet : Int → Bool} {os : Answers} {n : Nat}
    (h : Ready isSet os n layer history) {newsockfd : Int} (hnew : isSet newsockfd = false) :
    Ready isSet os n (acceptConnection layer newsockfd) history := by
  unfold Network.acceptConnection
  split
  · have hmappings : (layer.add newsockfd).mappings =
        layer.mappings ++ [⟨layer.nextConnection, newsockfd⟩] := rfl
    refine ⟨h.inv.add newsockfd, fun mapping hin => ?_, fun mapping hin hset => ?_, ?_⟩
    · obtain hin | hin := List.mem_append.mp hin
      · rw [connectionAt_add_of_lt newsockfd (h.inv.known mapping hin).1]
        exact h.opened mapping hin
      · rw [List.mem_singleton.mp hin, connectionAt_add_self]
    · obtain hin | hin := List.mem_append.mp hin
      · exact h.recv mapping hin hset
      · rw [List.mem_singleton.mp hin, hnew] at hset
        cases hset
    · rw [hmappings, List.countP_append]
      simpa [hnew] using h.room
  · exact h

theorem Ready.read {isSet : Int → Bool} {os : Answers} {n k : Nat} {written : List Job}
    (h : Ready isSet os n layer (history ++ written)) (hroom : 2 * n ≤ k) (resultsize : Int) :
    ∃ (layer' : Layer) (returned : Returned),
      (match readSockets os isSet resultsize layer.mappings.length 0 layer written.length 0
          (filled written k) with
        | .error fault => .error fault
        | .ok (layer, totalJobs, js) =>
            .ok (layer, if totalJobs = 0 then .nothing else ⟨totalJobs, js⟩)) =
          Except.ok (layer', returned) ∧
        returned.Fits ∧ Inv layer' (history ++ returned.taken) := by
  have hset : 2 * ((layer.mappings.drop 0).countP fun mapping => isSet mapping.sockfd) ≤ k := by
    rw [List.drop_zero]
    exact (Nat.mul_le_mul_left 2 h.room).trans hroom
  obtain ⟨layer', written', k', hrun, hinv⟩ := readSockets_spec os isSet resultsize history
    layer.mappings.length 0 layer written.length 0 written k h.inv rfl h.opened h.recv hset
  rw [hrun]
  refine ⟨_, _, rfl, ?_⟩
  split
  · rename_i hnone
    rw [List.length_eq_zero_iff.mp hnone] at hinv
    exact ⟨⟨[], 0, rfl, rfl⟩, hinv⟩
  · rw [taken_filled]
    exact ⟨⟨written', k', rfl, rfl⟩, hinv⟩

theorem Inv.removeClosed (h : Inv layer history) {os : Answers}
    (hundisturbed : Undisturbed layer (.getJobs os)) :
    ∃ left gone : List ConnectionMapping, left.length + gone.length = layer.mappings.length ∧
      (∀ mapping ∈ left, mapping ∈ layer.mappings ∧
        (layer.connectionAt mapping.connection).closings = []) ∧
      Inv { layer with mappings := left } (history ++ gone.flatMap fun m =>
        removalJobs m.connection) ∧
      removeClosedConnections layer.mappings.length 0 layer 0
          (List.replicate (layer.mappings.length * 2) none) =
        .ok ({ layer with mappings := left },
          (gone.flatMap fun m => removalJobs m.connection).length,
          filled (gone.flatMap fun m => removalJobs m.connection) (2 * left.length)) := by
  obtain ⟨left, gone, hscan, hspec⟩ := @Compaction.compactFrom_spec _ layer.isClosed
    layer.mappings.length [] layer.mappings (Nat.le_refl _)
  have hlength : left.length + gone.length = layer.mappings.length := by
    rw [hspec.perm.length_eq, List.length_append]
  have hleft : ∀ mapping ∈ left, mapping ∈ layer.mappings ∧
      (layer.connectionAt mapping.connection).closings = [] := by
    intro mapping hin
    have hold : mapping ∈ layer.mappings :=
      hspec.perm.mem_iff.mpr (List.mem_append_left gone hin)
    refine ⟨hold, ?_⟩
    by_cases hclosed : layer.isClosed mapping = true
    · obtain ⟨q, hq, hmoved⟩ := hspec.left mapping hin hclosed
      exact (hundisturbed.1 q mapping hq hclosed).mpr hmoved
    · exact h.opened _ (h.known mapping hold).1 (by simpa [Layer.isClosed] using hclosed)
  have hgone : ∀ mapping ∈ gone, (layer.connectionAt mapping.connection).state = .closed ∧
      (layer.connectionAt mapping.connection).closings.length = 1 := by
    intro mapping hin
    obtain ⟨hclosed, q, hq, hmoved⟩ := hspec.gone mapping hin
    have hold : mapping ∈ layer.mappings := hspec.perm.mem_iff.mpr (List.mem_append_right left hin)
    have hne : (layer.connectionAt mapping.connection).closings ≠ [] :=
      fun hnil => hmoved ((hundisturbed.1 q mapping hq hclosed).mp hnil)
    have hle := h.closedOnce _ (h.known mapping hold).1
    have hpos := List.length_pos_iff.mpr hne
    exact ⟨by simpa [Layer.isClosed] using hclosed, by omega⟩
  refine ⟨left, gone, hlength, hleft, h.removeAll gone hspec.perm hgone, ?_⟩
  have hremove := removeClosedConnections_eq layer.mappings.length 0 layer []
    (layer.mappings.length * 2) hscan (by omega)
  rw [List.nil_append, List.nil_append,
    show layer.mappings.length * 2 - 2 * gone.length = 2 * left.length by omega] at hremove
  exact hremove

theorem Inv.getJobs (h : Inv layer history) {os : Answers}
    (hpossible : Possible layer (.getJobs os)) (hundisturbed : Undisturbed layer (.getJobs os)) :
    ∃ layer' returned, getJobs layer os = .ok (layer', returned) ∧ returned.Fits ∧
      Inv layer' (history ++ returned.taken) := by
  obtain ⟨left, gone, hlength, hleft, hinv, hremove⟩ := h.removeClosed hundisturbed
  have hnothing : Returned.nothing.Fits ∧ Returned.nothing.taken = [] := ⟨⟨[], 0, rfl, rfl⟩, rfl⟩
  unfold Network.getJobs
  dsimp only
  rw [hremove]
  dsimp only
  split
  · rename_i hquiet
    have hnone := List.length_eq_zero_iff.mp hquiet.1
    refine ⟨_, _, rfl, hnothing.1, ?_⟩
    rw [hnothing.2, List.append_nil]
    rwa [hnone, List.append_nil] at hinv
  · generalize hisSet : (fun fd => decide (fd ∈ setFDSet { layer with mappings := left }) &&
      os.failed fd || decide (fd ∈ setFDSet { layer with mappings := left }) && os.readable fd) =
        isSet
    have hset : ∀ fd, isSet fd = true → fd ∈ setFDSet { layer with mappings := left } ∧
        (os.readable fd ∨ os.failed fd) := by
      intro fd hfd
      rw [← hisSet] at hfd
      simp only [Bool.or_eq_true, Bool.and_eq_true, decide_eq_true_eq] at hfd
      obtain ⟨hin, hfailed⟩ | ⟨hin, hreadable⟩ := hfd
      · exact ⟨hin, Or.inr hfailed⟩
      · exact ⟨hin, Or.inl hreadable⟩
    have hready : Ready isSet os left.length { layer with mappings := left }
        (history ++ gone.flatMap fun m => removalJobs m.connection) := by
      refine ⟨hinv, fun m hm => (hleft m hm).2, fun m hm hfd => ?_, List.countP_le_length⟩
      exact hundisturbed.2 m (hleft m hm).1 (hset _ hfd).2
    -- the new descriptor was not open when the sets were filled
    have hnew : isSet os.accept = false := by
      rw [Bool.eq_false_iff]
      intro hfd
      obtain hserver | hmapped := List.mem_cons.mp (hset _ hfd).1
      · exact hpossible.1 hserver
      · obtain ⟨m, hm, heq⟩ := List.mem_map.mp hmapped
        obtain ⟨hold, hopen⟩ := hleft m hm
        obtain ⟨hlt, hsockfd⟩ := h.known m hold
        exact hpossible.2 m.connection hlt hopen (heq.symm.trans hsockfd)
    have hready₂ : ∀ listening : Bool, Ready isSet os left.length
        (if listening = true then acceptConnection { layer with mappings := left } os.accept
          else { layer with mappings := left })
        (history ++ gone.flatMap fun m => removalJobs m.connection) := by
      intro listening
      split
      · exact hready.acceptConnection hnew
      · exact hready
    exact (hready₂ _).read (Nat.le_refl _) _

/-- What holds after a run: each array of jobs has its count, and the layer is in step with them. -/
def Reached (layer : Layer) (replies : List Returned) : Prop :=
  (∀ returned ∈ replies, returned.Fits) ∧ InStep layer (replies.flatMap Returned.taken)

/-- Connections arrive at the listening socket 3. -/
def accepting (newsockfd : Int) : Answers :=
  ⟨1, fun fd => fd == 3, fun _ => false, newsockfd, fun _ => .failed eagain⟩

/-- All other sockets have something to be received. -/
def receiving (select : Int) (recv : Nat → Received) : Answers :=
  ⟨select, fun fd => fd != 3, fun _ => false, -1, recv⟩

/-- A message is received, the answer cannot be sent, and the connection is removed. -/
def failingAnswer : List TcpStep :=
  [.getJobs (accepting 5), .getJobs (receiving 1 fun _ => .data [1]),
    .write 0 10 [.wrote 3, .failed 32], .getJobs (receiving 0 fun _ => .failed eagain)]

end FactoryThing.Network
