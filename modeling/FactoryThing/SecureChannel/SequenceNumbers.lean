import FactoryThing.SecureChannel.Receive

/-!
# Sequence numbers

The numbers of the chunks on a channel count up modulo 2^32, or start again below 1024 after any
value greater than 4294966271. `UA_SecureChannel_processSequenceNumber` compares
`receiveSequenceNumber + 1` instead of `receiveSequenceNumber` with that bound. At the bound itself
it takes a roll-over one number too early, and at the maximum, where the sum is zero, it takes none
at all (`Misjudged`). Everywhere else the receiver answers by the rule, for ever
(`answersByRule_iff`).
-/

namespace FactoryThing.SecureChannel

/-- The numbers that may follow a number. -/
def MayFollow (number next : UInt32) : Prop :=
  next = number + 1 ∨ (4294966271 < number ∧ next < 1024)

instance (number next : UInt32) : Decidable (MayFollow number next) := by
  unfold MayFollow
  exact inferInstance

/-- A sender whose last number was `number` numbers its next chunks so. -/
def Numbered (number : UInt32) : List UInt32 → Prop
  | [] => True
  | next :: rest => MayFollow number next ∧ Numbered next rest

/-- An answer of the receiver: whether the chunk is accepted, and the counter afterwards. -/
structure Answer where
  accepted : Bool
  counter : UInt32
  deriving DecidableEq

/-- The counter after a number, by the rule: a number that may not follow leaves it unchanged. -/
def counterByRule (counter number : UInt32) : UInt32 :=
  if MayFollow counter number then number else counter

def answersByRule (counter : UInt32) : List UInt32 → List Answer
  | [] => []
  | number :: rest =>
      ⟨MayFollow counter number, counterByRule counter number⟩ ::
        answersByRule (counterByRule counter number) rest

theorem accepted_of_numbered {counter : UInt32} {numbers : List UInt32}
    (h : Numbered counter numbers) : ∀ a ∈ answersByRule counter numbers, a.accepted = true := by
  induction numbers generalizing counter with
  | nil => exact fun a ha => nomatch ha
  | cons number rest ih =>
    intro a ha
    have hcounter : counterByRule counter number = number := if_pos h.1
    rw [answersByRule, hcounter] at ha
    obtain rfl | ha := List.mem_cons.mp ha
    · exact decide_eq_true h.1
    · exact ih h.2 a ha

/-- A channel after a chunk with this number: a refused number leaves the channel as it is. -/
def linkAfter (link : Link) (number : UInt32) : Link :=
  (processSequenceNumber link number).getD link

/-- The answers of a receiver to the numbers of the chunks that arrive. -/
def answers (link : Link) : List UInt32 → List Answer
  | [] => []
  | number :: rest =>
      ⟨(processSequenceNumber link number).isSome, (linkAfter link number).receiveSequenceNumber⟩ ::
        answers (linkAfter link number) rest

/-- The receiver stays in step: it answers by the rule, so that every chunk of a sender that keeps
to the rule is accepted. -/
def StaysInStep (link : Link) (numbers : List UInt32) : Prop :=
  answers link numbers = answersByRule link.receiveSequenceNumber numbers ∧
    (Numbered link.receiveSequenceNumber numbers → ∀ a ∈ answers link numbers, a.accepted = true)

/-- The receiver is wrong about a roll-over: it takes one at 4294966271 already, and at the maximum
only the one to zero. -/
def Misjudged (counter number : UInt32) : Prop :=
  number < 1024 ∧ (counter = 4294966271 ∨ (counter = 4294967295 ∧ number ≠ 0))

/-- No number of the stream is misjudged at the position of the counter it arrives at. -/
def NeverMisjudged (counter : UInt32) : List UInt32 → Prop
  | [] => True
  | number :: rest =>
      ¬ Misjudged counter number ∧ NeverMisjudged (counterByRule counter number) rest

def Passes (counter number : UInt32) : Prop :=
  number = counter + 1 ∨ (counter + 1 > 4294966271 ∧ number < 1024)

instance (counter number : UInt32) : Decidable (Passes counter number) := by
  unfold Passes
  exact inferInstance

theorem processSequenceNumber_eq (link : Link) (number : UInt32) :
    processSequenceNumber link number =
      if Passes link.receiveSequenceNumber number then
        some { link with receiveSequenceNumber := number }
      else none := by
  unfold processSequenceNumber Passes
  by_cases hnext : number = link.receiveSequenceNumber + 1
  · simp [hnext]
  · by_cases hroll : link.receiveSequenceNumber + 1 > 4294966271 ∧ number < 1024
    · simp [hnext, hroll]
    · simp [hnext, hroll]

theorem passes_iff_mayFollow_iff (counter number : UInt32) :
    (Passes counter number ↔ MayFollow counter number) ↔ ¬ Misjudged counter number := by
  unfold Passes MayFollow Misjudged
  have hsucc : (counter + 1).toNat = (counter.toNat + 1) % 4294967296 := UInt32.toNat_add counter 1
  have hlt : counter.toNat < 4294967296 := counter.toNat_lt
  simp only [← UInt32.toNat_inj, UInt32.lt_iff_toNat_lt, gt_iff_lt, ne_eq, hsucc,
    UInt32.reduceToNat]
  omega

theorem isSome_processSequenceNumber (link : Link) (number : UInt32) :
    (processSequenceNumber link number).isSome =
      decide (Passes link.receiveSequenceNumber number) := by
  rw [processSequenceNumber_eq]
  by_cases h : Passes link.receiveSequenceNumber number
  · simp [h]
  · simp [h]

theorem linkAfter_counter (link : Link) (number : UInt32) :
    (linkAfter link number).receiveSequenceNumber =
      if Passes link.receiveSequenceNumber number then number else link.receiveSequenceNumber := by
  rw [linkAfter, processSequenceNumber_eq]
  by_cases h : Passes link.receiveSequenceNumber number
  · simp [h]
  · simp [h]

theorem answersByRule_iff (link : Link) (numbers : List UInt32) :
    answers link numbers = answersByRule link.receiveSequenceNumber numbers ↔
      NeverMisjudged link.receiveSequenceNumber numbers := by
  induction numbers generalizing link with
  | nil => exact ⟨fun _ => trivial, fun _ => rfl⟩
  | cons number rest ih =>
    have hone := passes_iff_mayFollow_iff link.receiveSequenceNumber number
    rw [answers, answersByRule, NeverMisjudged, List.cons.injEq, Answer.mk.injEq,
      isSome_processSequenceNumber, decide_eq_decide]
    constructor
    · intro h
      obtain ⟨⟨hpasses, hcounter⟩, hrest⟩ := h
      refine ⟨hone.mp hpasses, ?_⟩
      rw [← hcounter] at hrest ⊢
      exact (ih (linkAfter link number)).mp hrest
    · intro h
      obtain ⟨hno, hrest⟩ := h
      have hpasses := hone.mpr hno
      have hcounter : (linkAfter link number).receiveSequenceNumber =
          counterByRule link.receiveSequenceNumber number := by
        rw [linkAfter_counter, counterByRule]
        exact if_congr hpasses rfl rfl
      refine ⟨⟨hpasses, hcounter⟩, ?_⟩
      rw [← hcounter] at hrest ⊢
      exact (ih (linkAfter link number)).mpr hrest

/-- The receiver stays in step exactly when no roll-over is misjudged. -/
theorem staysInStep_iff (link : Link) (numbers : List UInt32) :
    StaysInStep link numbers ↔ NeverMisjudged link.receiveSequenceNumber numbers := by
  constructor
  · intro h
    exact (answersByRule_iff link numbers).mp h.1
  · intro h
    have hanswers := (answersByRule_iff link numbers).mpr h
    refine ⟨hanswers, fun hnumbered => ?_⟩
    rw [hanswers]
    exact accepted_of_numbered hnumbered

/-- After the maximum a sender may go on with 1, which is refused; and a skip to 5 is accepted
although the number before it does not allow a roll-over. -/
theorem rollOver_misjudged :
    Numbered 4294967295 [1] ∧
    ¬ StaysInStep ⟨⟨1, 1⟩, ⟨0, 0⟩, 4294967295⟩ [1] ∧
    ¬ MayFollow 4294966271 5 ∧
    ¬ StaysInStep ⟨⟨1, 1⟩, ⟨0, 0⟩, 4294966271⟩ [5] := by
  refine ⟨⟨by decide, trivial⟩, ?_, by decide, ?_⟩
  · intro h
    have hanswers := h.1
    revert hanswers
    decide
  · intro h
    have hanswers := h.1
    revert hanswers
    decide

end FactoryThing.SecureChannel
