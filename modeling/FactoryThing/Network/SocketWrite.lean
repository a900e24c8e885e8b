import FactoryThing.Network.TcpLayer

/-!
# Sending a buffer

`socket_write` (`plugins/ua_network_tcp.c:92-121`) with the bytes that the operating system accepts,
for the connections of a server and of a client. The exit after an error closes the connection
twice: with the function of the connection, and with `socket_close`. For a client both of them call
`close` on the descriptor.
-/

namespace FactoryThing.Network

inductive Side where
  | server
  | client
  deriving DecidableEq

/-- `ClientNetworkLayerClose` (`:630-641`). -/
def clientNetworkLayerClose (conn : Connection) (cause : Cause) : Connection :=
  if conn.state = .closed then conn else socketClose { conn with state := .closed } cause

/-- `connection->close`. -/
def Side.close (side : Side) (conn : Connection) (cause : Cause) : Connection :=
  match side with
  | server => closeConnection conn
  | client => clientNetworkLayerClose conn cause

/-- What comes of a call: the connection, the bytes that were accepted, how often the buffer was
released and the status, if the call has come back. -/
structure Written where
  connection : Connection
  accepted : List UInt8
  releases : Nat
  status : Option StatusCode
  deriving DecidableEq

/-- An outcome after which the loop goes on. -/
def interrupted (errno : Errno) : Bool := errno = eintr || errno = eagain

/-- `socket_write` (`:100-121`), from an offset on. -/
def socketWriteBuffer (side : Side) (conn : Connection) (buf : List UInt8) :
    Nat → List Sent → Written
  | _, [] => ⟨conn, [], 0, none⟩
  | nWritten, .failed errno :: rest =>
      if interrupted errno = false then
        ⟨socketClose (side.close conn (.sendFailed errno)) (.sendFailed errno), [], 1,
          some StatusCode.badConnectionClosed⟩
      else socketWriteBuffer side conn buf nWritten rest
  | nWritten, .wrote n :: rest =>
      if nWritten + n < buf.length then
        let written := socketWriteBuffer side conn buf (nWritten + n) rest
        { written with accepted := (buf.drop nWritten).take n ++ written.accepted }
      else ⟨conn, (buf.drop nWritten).take n, 1, some StatusCode.good⟩

/-- A call that comes back Good has sent the buffer. Otherwise a prefix of it was sent, the
connection is closed, and its descriptor has been closed at most once. The buffer is released. -/
def GoesOutWhole (buf : List UInt8) (written : Written) : Prop :=
  written.accepted <+: buf ∧
    ∀ status, written.status = some status → written.releases = 1 ∧
      if status = StatusCode.good then written.accepted = buf
      else written.connection.state = .closed ∧ written.connection.closings.length ≤ 1

/-- There is an error, other than an interruption, before `left` more bytes have been accepted. -/
def breaksOff (left : Nat) : List Sent → Bool
  | [] => false
  | .failed errno :: rest => if interrupted errno = false then true else breaksOff left rest
  | .wrote n :: rest => if n < left then breaksOff (left - n) rest else false

variable {side : Side} {conn : Connection} {buf : List UInt8} {nWritten : Nat}
  {outcomes : List Sent}

theorem take_append_prefix {n : Nat} {more : List UInt8} (h : more <+: buf.drop (nWritten + n)) :
    (buf.drop nWritten).take n ++ more <+: buf.drop nWritten := by
  obtain ⟨rest, hrest⟩ := h
  refine ⟨rest, ?_⟩
  rw [List.append_assoc, hrest, ← List.drop_drop, List.take_append_drop]

theorem accepted_isPrefix (side : Side) (conn : Connection) (buf : List UInt8) (nWritten : Nat)
    (outcomes : List Sent) :
    (socketWriteBuffer side conn buf nWritten outcomes).accepted <+: buf.drop nWritten := by
  induction outcomes generalizing nWritten with
  | nil => exact List.nil_prefix
  | cons outcome rest ih =>
    unfold socketWriteBuffer
    cases outcome with
    | failed errno =>
      dsimp only
      split
      · exact List.nil_prefix
      · exact ih nWritten
    | wrote n =>
      dsimp only
      split
      · exact take_append_prefix (ih (nWritten + n))
      · exact List.take_prefix _ _

theorem status_cases {status : StatusCode}
    (h : (socketWriteBuffer side conn buf nWritten outcomes).status = some status) :
    (socketWriteBuffer side conn buf nWritten outcomes).releases = 1 ∧
      ((status = StatusCode.good ∧ breaksOff (buf.length - nWritten) outcomes = false ∧
          (socketWriteBuffer side conn buf nWritten outcomes).accepted = buf.drop nWritten) ∨
        (status = StatusCode.badConnectionClosed ∧
          breaksOff (buf.length - nWritten) outcomes = true ∧
          ∃ errno, (socketWriteBuffer side conn buf nWritten outcomes).connection =
            socketClose (side.close conn (.sendFailed errno)) (.sendFailed errno))) := by
  induction outcomes generalizing nWritten with
  | nil => cases h
  | cons outcome rest ih =>
    unfold socketWriteBuffer at h ⊢
    unfold breaksOff
    cases outcome with
    | failed errno =>
      dsimp only at h ⊢
      by_cases hfatal : interrupted errno = false
      · rw [if_pos hfatal] at h ⊢
        rw [if_pos hfatal]
        exact ⟨rfl, Or.inr ⟨(Option.some.inj h).symm, rfl, errno, rfl⟩⟩
      · rw [if_neg hfatal] at h ⊢
        rw [if_neg hfatal]
        exact ih h
    | wrote n =>
      dsimp only at h ⊢
      by_cases hmore : nWritten + n < buf.length
      · have hleft : n < buf.length - nWritten := Nat.lt_sub_iff_add_lt'.mpr hmore
        rw [if_pos hmore] at h ⊢
        rw [if_pos hleft, Nat.sub_sub]
        obtain ⟨hreleases, hcases⟩ := ih h
        refine ⟨hreleases, hcases.imp ?_ id⟩
        rintro ⟨hgood, hwhole, haccepted⟩
        refine ⟨hgood, hwhole, ?_⟩
        rw [haccepted, ← List.drop_drop, List.take_append_drop]
      · have hleft : ¬ n < buf.length - nWritten := mt Nat.lt_sub_iff_add_lt'.mp hmore
        rw [if_neg hmore] at h ⊢
        rw [if_neg hleft]
        refine ⟨rfl, Or.inl ⟨(Option.some.inj h).symm, rfl, ?_⟩⟩
        rw [List.take_of_length_le]
        rw [List.length_drop]
        omega

theorem status_of_breaksOff (h : breaksOff (buf.length - nWritten) outcomes = true) :
    (socketWriteBuffer side conn buf nWritten outcomes).status =
      some StatusCode.badConnectionClosed := by
  induction outcomes generalizing nWritten with
  | nil => cases h
  | cons outcome rest ih =>
    unfold breaksOff at h
    unfold socketWriteBuffer
    cases outcome with
    | failed errno =>
      dsimp only at h ⊢
      by_cases hfatal : interrupted errno = false
      · rw [if_pos hfatal]
      · rw [if_neg hfatal] at h ⊢
        exact ih h
    | wrote n =>
      dsimp only at h ⊢
      by_cases hmore : n < buf.length - nWritten
      · rw [if_pos hmore, Nat.sub_sub] at h
        rw [if_pos (Nat.lt_sub_iff_add_lt'.mp hmore)]
        exact ih h
      · rw [if_neg hmore] at h
        cases h

theorem length_closings_socketClose (side : Side) (conn : Connection) (cause : Cause) :
    (socketClose (side.close conn cause) cause).closings.length =
      conn.closings.length + if side = .client ∧ conn.state ≠ .closed then 2 else 1 := by
  cases side with
  | server =>
    have hclosings : (closeConnection conn).closings = conn.closings := by
      unfold closeConnection
      split <;> rfl
    simp [Side.close, socketClose, hclosings]
  | client =>
    by_cases hclosed : conn.state = .closed
    · simp [Side.close, clientNetworkLayerClose, socketClose, hclosed]
    · simp [Side.close, clientNetworkLayerClose, socketClose, hclosed]

/-- The buffer goes out whole, or a prefix of it over a connection that is closed once, except when
a call meets an error on the open connection of a client. -/
theorem socketWriteBuffer_iff (side : Side) (conn : Connection) (buf : List UInt8)
    (outcomes : List Sent) (hopen : conn.closings = []) :
    GoesOutWhole buf (socketWriteBuffer side conn buf 0 outcomes) ↔
      (side = .client → conn.state ≠ .closed → breaksOff buf.length outcomes = false) := by
  have hbad : StatusCode.badConnectionClosed ≠ StatusCode.good := by decide
  constructor
  · rintro ⟨-, hback⟩ rfl hstate
    rw [← Bool.not_eq_true]
    intro hbreaks
    have hstatus : (socketWriteBuffer .client conn buf 0 outcomes).status =
        some StatusCode.badConnectionClosed := status_of_breaksOff hbreaks
    obtain ⟨-, hend⟩ := hback _ hstatus
    rw [if_neg hbad] at hend
    obtain ⟨-, ⟨hgood, -⟩ | ⟨-, -, errno, hconn⟩⟩ := status_cases hstatus
    · exact hbad hgood
    · have hlength := length_closings_socketClose .client conn (.sendFailed errno)
      rw [if_pos ⟨rfl, hstate⟩, hopen] at hlength
      rw [hconn, hlength] at hend
      exact absurd hend.2 (by decide)
  · intro hwhole
    refine ⟨accepted_isPrefix side conn buf 0 outcomes, fun status hstatus => ?_⟩
    obtain ⟨hreleases, ⟨rfl, -, haccepted⟩ | ⟨rfl, hbreaks, errno, hconn⟩⟩ := status_cases hstatus
    · exact ⟨hreleases, by rw [if_pos rfl]; exact haccepted⟩
    · refine ⟨hreleases, ?_⟩
      have hlength := length_closings_socketClose side conn (.sendFailed errno)
      have honce : ¬ (side = .client ∧ conn.state ≠ .closed) := by
        rintro ⟨hside, hstate⟩
        have hnot := hwhole hside hstate
        rw [Nat.sub_zero, hnot] at hbreaks
        cases hbreaks
      rw [if_neg honce, hopen] at hlength
      rw [if_neg hbad, hconn]
      exact ⟨rfl, le_of_eq hlength⟩

def freshConnection : Connection := ⟨7, .opening, []⟩

/-- A partial write, an interruption and the rest. -/
theorem goesOutWhole_resumed :
    GoesOutWhole [1, 2, 3] (socketWriteBuffer .client freshConnection [1, 2, 3] 0
      [.wrote 2, .failed eintr, .wrote 1]) :=
  (socketWriteBuffer_iff .client freshConnection [1, 2, 3] _ rfl).mpr fun _ _ => rfl

/-- A broken pipe: the descriptor of a client is closed two times. -/
theorem client_closed_twice :
    ¬ GoesOutWhole [1] (socketWriteBuffer .client freshConnection [1] 0 [.failed 32]) := by
  rintro ⟨-, hback⟩
  exact absurd (hback StatusCode.badConnectionClosed rfl).2 (by decide)

end FactoryThing.Network
