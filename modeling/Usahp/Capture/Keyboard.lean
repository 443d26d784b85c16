import Usahp.Broker.Escape

/-!
Keyboard capture. A callback gets every key event of the system; it looks the
key up in a table of mappings and sends one input for each mapping of the key.
While a key is held the system repeats its press, and the callback makes no
difference between the first press and the others.

The table is built here from the names of keys. What follows is over any table,
so it holds of the tap on macOS too, whose table has other keys.
-/

namespace Usahp.Capture

open Std Usahp.Library Usahp.Broker

/-- The keys that have a name in the configuration, and the others. -/
inductive Key where
  | space | return_ | escape | tab
  | upArrow | downArrow | leftArrow | rightArrow
  | keyA | keyB | keyC | keyD | keyE | keyF | keyG | keyH | keyI | keyJ | keyK | keyL | keyM
  | keyN | keyO | keyP | keyQ | keyR | keyS | keyT | keyU | keyV | keyW | keyX | keyY | keyZ
  | other (code : Nat)
  deriving DecidableEq

/-- `str::to_ascii_lowercase`. -/
def toAsciiLowercase (text : String) : String := text.map Char.toLower

def parseKey (code : String) : Except String Key :=
  match toAsciiLowercase code with
  | "space" => .ok .space
  | "return" | "enter" => .ok .return_
  | "escape" | "esc" => .ok .escape
  | "tab" => .ok .tab
  | "up" | "uparrow" => .ok .upArrow
  | "down" | "downarrow" => .ok .downArrow
  | "left" | "leftarrow" => .ok .leftArrow
  | "right" | "rightarrow" => .ok .rightArrow
  | "a" => .ok .keyA
  | "b" => .ok .keyB
  | "c" => .ok .keyC
  | "d" => .ok .keyD
  | "e" => .ok .keyE
  | "f" => .ok .keyF
  | "g" => .ok .keyG
  | "h" => .ok .keyH
  | "i" => .ok .keyI
  | "j" => .ok .keyJ
  | "k" => .ok .keyK
  | "l" => .ok .keyL
  | "m" => .ok .keyM
  | "n" => .ok .keyN
  | "o" => .ok .keyO
  | "p" => .ok .keyP
  | "q" => .ok .keyQ
  | "r" => .ok .keyR
  | "s" => .ok .keyS
  | "t" => .ok .keyT
  | "u" => .ok .keyU
  | "v" => .ok .keyV
  | "w" => .ok .keyW
  | "x" => .ok .keyX
  | "y" => .ok .keyY
  | "z" => .ok .keyZ
  | _ => .error ("unsupported keyboard code '" ++ code ++ "'")

/-- The ids of the mappings of each key, in configuration order. -/
abbrev KeyTable (κ : Type*) := κ → Option (List String)

section Table

variable {κ : Type*} [DecidableEq κ]

/-- `entry(key).or_default().push(id)`. -/
def KeyTable.push (byKey : KeyTable κ) (key : κ) (id : String) : KeyTable κ :=
  Function.update byKey key (some ((byKey key).getD [] ++ [id]))

end Table

/-- The table of `spawn_keyboard`, which `spawn` calls with the keyboard
mappings. -/
def keyboardTable (mappings : List Mapping) : Except String (KeyTable Key) :=
  (mappings.filter (·.input = .keyboard)).foldlM
    (fun byKey mapping => do
      let key ← parseKey mapping.code
      return byKey.push key mapping.id)
    (fun _ => none)

inductive KeyEvent (κ : Type*) where
  | keyPress (key : κ)
  | keyRelease (key : κ)
  | other

/-- A binary input is fully certain. -/
def binaryConfidence : Usahp.Action → F32
  | .pressed => .finite 100
  | .released => .finite 0

variable {κ : Type*}

/-- The loop over the mappings of a key. -/
def inputsOf (byKey : KeyTable κ) (key : κ) (action : Usahp.Action) : List PhysicalEvent :=
  match byKey key with
  | none => []
  | some mappingIds =>
      mappingIds.map fun mappingId =>
        { mappingId, action, confidence := some (binaryConfidence action) }

/-- What the callback sends for an event when it finds the flag `enabled`. An
event for which it sends nothing is passed on to the system. -/
def keyboardInputs (byKey : KeyTable κ) (enabled : Bool) (event : KeyEvent κ) :
    List PhysicalEvent :=
  if !enabled then []
  else
    match event with
    | .keyPress key => inputsOf byKey key .pressed
    | .keyRelease key => inputsOf byKey key .released
    | .other => []

example : parseKey "UpArrow" = parseKey "up" := by decide +kernel

/-- A command on its way to the broker; `repeated` marks the inputs of a repeated
press. Nothing reads the mark. -/
structure Queued where
  command : BrokerCommand
  repeated : Bool

/-- The broker with the keyboard callback. Inputs wait in `pending` until the
callback finds room for them in the channel. -/
structure Typing where
  runtime : Runtime
  pending : List Queued
  queue : List Queued

/-- What happens. A handler may move the flag while it runs, so what the callback
reads of it is part of the move. -/
inductive Happening (κ : Type*) where
  | strike (event : KeyEvent κ) (enabled : Bool)
  /-- The system repeats the press of a key that is held. -/
  | again (key : κ) (enabled : Bool)
  | post
  | submit (command : BrokerCommand)
  | receive (surroundings : Surroundings)
  | tick (surroundings : Surroundings)

def queuedInputs (inputs : List PhysicalEvent) (repeated : Bool) : List Queued :=
  inputs.map fun event => { command := .input event, repeated }

namespace Typing

def step (byKey : KeyTable κ) (typing : Typing) : Happening κ → Typing
  | .strike event enabled =>
      { typing with
        pending := typing.pending ++ queuedInputs (keyboardInputs byKey enabled event) false }
  | .again key enabled =>
      { typing with
        pending := typing.pending ++
          queuedInputs (keyboardInputs byKey enabled (.keyPress key)) true }
  | .post =>
      match typing.pending with
      | [] => typing
      | input :: rest => { typing with pending := rest, queue := typing.queue ++ [input] }
  | .submit command => { typing with queue := typing.queue ++ [⟨command, false⟩] }
  | .receive surroundings =>
      match typing.queue with
      | [] => typing
      | ⟨command, _⟩ :: rest =>
          { typing with
            runtime := typing.runtime.step ⟨surroundings, .command command⟩
            queue := rest }
  | .tick surroundings =>
      { typing with runtime := typing.runtime.step ⟨surroundings, .tick⟩ }

/-- Whether the first of some commands comes from a repeated press. -/
def headRepeated : List Queued → Bool
  | [] => false
  | input :: _ => input.repeated

/-- The same happening without the repeated presses and what comes of them. -/
def unrepeated (typing : Typing) (happening : Happening κ) : Option (Happening κ) :=
  match happening with
  | .again _ _ => none
  | .post => if headRepeated typing.pending then none else some .post
  | .receive surroundings =>
      if headRepeated typing.queue then none else some (.receive surroundings)
  | .strike event enabled => some (.strike event enabled)
  | .submit command => some (.submit command)
  | .tick surroundings => some (.tick surroundings)

/-- The state machine still records a mapping as held. -/
def Holds (state : SwitchStateMachine) (mappingId : String) : Prop :=
  ∀ switchId ∈ state.mappingToSwitch[mappingId]?, mappingId ∈ state.active switchId

/-- A repeated press that the broker takes while it listens is one of a mapping
that is recorded as held. -/
def Recorded (typing : Typing) (happening : Happening κ) : Prop :=
  match happening, typing.queue with
  | .receive _, ⟨.input event, true⟩ :: _ =>
      typing.runtime.Listening → Holds typing.runtime.state event.mappingId
  | _, _ => True

instance (state : SwitchStateMachine) (mappingId : String) :
    Decidable (Holds state mappingId) :=
  inferInstanceAs (Decidable (∀ switchId ∈ state.mappingToSwitch[mappingId]?, _))

instance (typing : Typing) : DecidablePred (Recorded (κ := κ) typing) := by
  intro happening
  unfold Recorded
  split <;> infer_instance

/-- The edges that have become events. -/
def edges (typing : Typing) : List (String × Usahp.Action) :=
  typing.runtime.history.created.map fun created =>
    (created.event.switchId, created.event.action)

end Typing

def typing (byKey : KeyTable κ) (mappings : List Mapping) (started : Instant) :
    Machine Typing (Happening κ) where
  start := { runtime := Runtime.new mappings started, pending := [], queue := [] }
  step := Typing.step byKey

section Hold

variable {runtime : Runtime} {step : Step} {mappingId : String}

/-- While the broker goes on listening and no session begins, an input is all that
moves the state machine. -/
theorem state_heard (hlistening : runtime.Listening)
    (hrunning : (runtime.step step).paused = false)
    (hclosed : runtime.session = none → (runtime.step step).session = none) :
    (runtime.step step).state = heard runtime.state step.wakeup := by
  have hturn := runtime.step_turn step
  obtain ⟨surroundings, wakeup⟩ := step
  dsimp only at hturn ⊢
  generalize runtime.step ⟨surroundings, wakeup⟩ = after at hturn hrunning hclosed ⊢
  have hended {before : Runtime} {session : Session} {reason : SessionRevocationReason}
      (hactive : before.session = some session) :
      ¬ (before.revoke surroundings reason).paused = false := by
    have hpaused := congrArg Core.paused (before.revoke_core surroundings reason hactive)
    intro hstill
    cases hpaused.symm.trans hstill
  cases hturn with
  | registered channel => exact congrArg Core.state (runtime.register_core channel)
  | left _ _ => rfl
  | disconnected session hactive => exact absurd hrunning (hended hactive)
  | muted _ hdeaf => exact absurd hlistening hdeaf
  | unchanged event _ error happlied => exact (runtime.state.apply_snd_of_error happlied).symm
  | inner event _ state happlied _ => simp only [heard, happlied]
  | announced event _ _ transition state houter =>
      simp only [heard, houter.applied]
      rfl
  | routed event _ session _ transition state houter _ =>
      simp only [heard, houter.applied]
      exact congrArg Core.state (Runtime.trySend_core _ session.clientId _)
  | overflowed event _ session hactive transition state houter _ =>
      exact absurd hrunning (hended (runtime.dropped_session surroundings.now state transition
        session.clientId hactive))
  | rejected clientId _ reason _ => exact congrArg Core.state (runtime.reject_core clientId reason)
  | unavailable _ _ _ hpaused _ _ => cases hlistening.1.symm.trans hpaused
  | abandoned _ _ _ _ _ _ => cases hrunning
  | accepted clientId handshake hrejection base _ _ =>
      have hopened := (base.releaseLegacy surroundings).opened_session surroundings clientId
        handshake.pid (acceptance surroundings.uuid)
      cases hopened.symm.trans (hclosed (runtime.rejection_eq_none hrejection))
  | refused clientId handshake _ base _ _ _ =>
      have hopened := (base.releaseLegacy surroundings).opened_session surroundings clientId
        handshake.pid (acceptance surroundings.uuid)
      exact absurd hrunning (hended hopened)
  | renewed _ _ => rfl
  | stale _ _ _ => rfl
  | revoked _ hactive _ _ _ => exact absurd hrunning (hended hactive)
  | ignored _ hkind _ =>
      obtain rfl | ⟨reason, rfl⟩ | ⟨frontmostPid, rfl⟩ := hkind
      · rfl
      · rfl
      · rfl

/-- A press puts a mapping on record, and only its own release takes it off. -/
theorem Typing.Holds.apply {state : SwitchStateMachine} {other : String} {action : Usahp.Action}
    (h : Holds state mappingId ∨ other = mappingId)
    (hpressed : other = mappingId → action = .pressed) (confidence : Option F32) :
    Holds (state.apply other action confidence).2 mappingId := by
  intro switchId hswitch
  rw [state.apply_mappingToSwitch] at hswitch
  cases hknown : state.mappingToSwitch[other]? with
  | none =>
      rw [state.apply_unknown hknown]
      rcases h with hheld | rfl
      · exact hheld switchId hswitch
      · cases hknown.symm.trans hswitch
  | some own =>
      rw [state.mem_active_apply hknown]
      split_ifs with hsame
      · exact hpressed hsame.1.symm
      · rcases h with hheld | rfl
        · exact hheld switchId hswitch
        · cases hknown.symm.trans hswitch
          exact absurd ⟨rfl, rfl⟩ hsame

/-- So a mapping stays recorded as held from its press to its release, as long as
the broker listens and no session begins. -/
theorem holds_step (hlistening : runtime.Listening)
    (hrunning : (runtime.step step).paused = false)
    (hclosed : runtime.session = none → (runtime.step step).session = none)
    (h : Typing.Holds runtime.state mappingId ∨ Touches mappingId step)
    (hpressed : ∀ event, step.wakeup = .command (.input event) →
      event.mappingId = mappingId → event.action = .pressed) :
    Typing.Holds (runtime.step step).state mappingId := by
  rw [state_heard hlistening hrunning hclosed]
  unfold Touches at h
  unfold heard
  split
  · rename_i event hwakeup
    rw [hwakeup] at h
    exact .apply h (hpressed event hwakeup) _
  · rename_i hother
    rcases h with hheld | htouches
    · exact hheld
    · split at htouches
      · rename_i event hwakeup
        exact absurd hwakeup (hother event)
      · exact htouches.elim

end Hold

/-- A press of a mapping that is held is an error of the state machine, and it
changes nothing. -/
theorem repeat_silent {runtime : Runtime} {event : PhysicalEvent}
    (hpressed : event.action = .pressed)
    (h : runtime.Listening → Typing.Holds runtime.state event.mappingId)
    (surroundings : Surroundings) :
    runtime.step ⟨surroundings, .command (.input event)⟩ = runtime := by
  have herror (hlistening : runtime.Listening) : ∃ error,
      (runtime.state.apply event.mappingId event.action
        (event.confidence.bind validateConfidence)).1 = .error error := by
    rw [hpressed]
    cases hknown : runtime.state.mappingToSwitch[event.mappingId]? with
    | none =>
        rw [runtime.state.apply_unknown hknown]
        exact ⟨_, rfl⟩
    | some switchId =>
        have hheld : event.mappingId ∈ runtime.state.active switchId :=
          h hlistening switchId hknown
        rw [runtime.state.apply_known hknown]
        exact ⟨_, if_pos hheld⟩
  have hturn := runtime.step_turn ⟨surroundings, .command (.input event)⟩
  generalize runtime.step ⟨surroundings, .command (.input event)⟩ = after at hturn ⊢
  cases hturn with
  | muted _ _ => rfl
  | unchanged _ _ _ _ => rfl
  | inner _ hlistening state happlied _ =>
      obtain ⟨error, hfailed⟩ := herror hlistening
      rw [happlied] at hfailed
      cases hfailed
  | announced _ hlistening _ transition state houter =>
      obtain ⟨error, hfailed⟩ := herror hlistening
      rw [houter.applied] at hfailed
      cases hfailed
  | routed _ hlistening _ _ transition state houter _ =>
      obtain ⟨error, hfailed⟩ := herror hlistening
      rw [houter.applied] at hfailed
      cases hfailed
  | overflowed _ hlistening _ _ transition state houter _ =>
      obtain ⟨error, hfailed⟩ := herror hlistening
      rw [houter.applied] at hfailed
      cases hfailed
  | revoked _ _ _ _ hdemand => cases hdemand
  | ignored _ _ _ => rfl

namespace Typing

def isPlain (queued : Queued) : Bool := !queued.repeated

/-- What is marked as repeated is a press. -/
def Marked (typing : Typing) : Prop :=
  ∀ queued ∈ typing.pending ++ typing.queue, queued.repeated = true →
    ∃ event, queued.command = .input event ∧ event.action = .pressed

/-- The run with repeats and the one without: the same broker, and the same
commands on their way but for the repeats. -/
structure Related (left right : Typing) : Prop where
  runtime : right.runtime = left.runtime
  pending : right.pending = left.pending.filter isPlain
  queue : right.queue = left.queue.filter isPlain
  marked : Marked left

theorem pressed_of_repeat {byKey : KeyTable κ} {key : κ} {enabled : Bool} {queued : Queued}
    (h : queued ∈ queuedInputs (keyboardInputs byKey enabled (.keyPress key)) true) :
    ∃ event, queued.command = .input event ∧ event.action = .pressed := by
  obtain ⟨event, hevent, rfl⟩ := List.mem_map.mp h
  refine ⟨event, rfl, ?_⟩
  unfold keyboardInputs inputsOf at hevent
  split_ifs at hevent
  · cases hevent
  · dsimp only at hevent
    split at hevent
    · cases hevent
    · obtain ⟨mappingId, -, rfl⟩ := List.mem_map.mp hevent
      rfl

theorem Marked.step {typing : Typing} (h : Marked typing) (byKey : KeyTable κ)
    (happening : Happening κ) : Marked (typing.step byKey happening) := by
  cases happening with
  | strike event enabled =>
      intro queued hmem hrepeated
      simp only [Typing.step, List.mem_append] at hmem
      rcases hmem with (hpending | hnew) | hqueue
      · exact h queued (by simp [hpending]) hrepeated
      · obtain ⟨input, -, rfl⟩ := List.mem_map.mp hnew
        cases hrepeated
      · exact h queued (by simp [hqueue]) hrepeated
  | again key enabled =>
      intro queued hmem hrepeated
      simp only [Typing.step, List.mem_append] at hmem
      rcases hmem with (hpending | hnew) | hqueue
      · exact h queued (by simp [hpending]) hrepeated
      · exact pressed_of_repeat hnew
      · exact h queued (by simp [hqueue]) hrepeated
  | submit command =>
      intro queued hmem hrepeated
      simp only [Typing.step, List.mem_append, List.mem_singleton] at hmem
      rcases hmem with hpending | hqueue | rfl
      · exact h queued (by simp [hpending]) hrepeated
      · exact h queued (by simp [hqueue]) hrepeated
      · cases hrepeated
  | tick surroundings => exact h
  | post =>
      cases hpending : typing.pending with
      | nil => simpa only [Typing.step, hpending] using h
      | cons input rest =>
          intro queued hmem
          apply h queued
          simp only [Typing.step, hpending, List.mem_append, List.mem_cons] at hmem ⊢
          tauto
  | receive surroundings =>
      cases hqueue : typing.queue with
      | nil => simpa only [Typing.step, hqueue] using h
      | cons input rest =>
          intro queued hmem
          apply h queued
          simp only [Typing.step, hqueue, List.mem_append, List.mem_cons] at hmem ⊢
          tauto

theorem filter_repeats (inputs : List PhysicalEvent) :
    (queuedInputs inputs true).filter isPlain = [] := by
  simp [queuedInputs, isPlain]

theorem filter_first (inputs : List PhysicalEvent) :
    (queuedInputs inputs false).filter isPlain = queuedInputs inputs false := by
  simp [queuedInputs, isPlain]

namespace Related

variable {left right : Typing} {byKey : KeyTable κ}

/-- A repeat, and the way of its inputs, is not seen from the right. -/
theorem hidden (h : Related left right) {happening : Happening κ}
    (hrecorded : Recorded left happening) (hhidden : unrepeated left happening = none) :
    Related (left.step byKey happening) right := by
  have hmarked := h.marked.step byKey happening
  cases happening with
  | strike event enabled => cases hhidden
  | submit command => cases hhidden
  | tick surroundings => cases hhidden
  | again key enabled =>
      refine ⟨h.runtime, ?_, h.queue, hmarked⟩
      simp only [step, List.filter_append, filter_repeats, List.append_nil]
      exact h.pending
  | post =>
      cases hpending : left.pending with
      | nil => simp [unrepeated, hpending, headRepeated] at hhidden
      | cons input rest =>
          have hrepeated : input.repeated = true := by
            simpa [unrepeated, hpending, headRepeated] using hhidden
          have hplain : isPlain input = false := by simp [isPlain, hrepeated]
          refine ⟨?_, ?_, ?_, hmarked⟩
          · simpa only [step, hpending] using h.runtime
          · simpa [step, hpending, hplain] using h.pending
          · simpa [step, hpending, hplain] using h.queue
  | receive surroundings =>
      cases hqueue : left.queue with
      | nil => simp [unrepeated, hqueue, headRepeated] at hhidden
      | cons input rest =>
          obtain ⟨command, repeated⟩ := input
          have hrepeated : repeated = true := by
            simpa [unrepeated, hqueue, headRepeated] using hhidden
          subst hrepeated
          obtain ⟨event, hinput, hpressed⟩ := h.marked ⟨command, true⟩ (by simp [hqueue]) rfl
          obtain rfl : command = .input event := hinput
          have hheld : left.runtime.Listening → Holds left.runtime.state event.mappingId := by
            simpa only [Recorded, hqueue] using hrecorded
          have hsilent := repeat_silent hpressed hheld surroundings
          refine ⟨?_, ?_, ?_, hmarked⟩
          · simpa only [step, hqueue, hsilent] using h.runtime
          · simpa only [step, hqueue] using h.pending
          · simpa [step, hqueue, isPlain] using h.queue

/-- Everything else happens on both sides. -/
theorem shown (h : Related left right) {happening other : Happening κ}
    (hshown : unrepeated left happening = some other) :
    Related (left.step byKey happening) (right.step byKey other) := by
  have hmarked := h.marked.step byKey happening
  cases happening with
  | again key enabled => cases hshown
  | strike event enabled =>
      cases hshown
      refine ⟨h.runtime, ?_, h.queue, hmarked⟩
      simp only [step, List.filter_append, filter_first, h.pending]
  | submit command =>
      cases hshown
      refine ⟨h.runtime, h.pending, ?_, hmarked⟩
      simp [step, h.queue, isPlain]
  | tick surroundings =>
      cases hshown
      refine ⟨?_, h.pending, h.queue, hmarked⟩
      simp only [step, h.runtime]
  | post =>
      cases hpending : left.pending with
      | nil =>
          have hright : right.pending = [] := by simp [h.pending, hpending]
          simp only [unrepeated, hpending, headRepeated, Bool.false_eq_true, if_false,
            Option.some.injEq] at hshown
          subst hshown
          simpa only [step, hpending, hright] using h
      | cons input rest =>
          simp only [unrepeated, hpending, headRepeated] at hshown
          split_ifs at hshown with hrepeated
          cases hshown
          have hplain : isPlain input = true := by simpa [isPlain] using hrepeated
          have hright : right.pending = input :: rest.filter isPlain := by
            simp [h.pending, hpending, hplain]
          refine ⟨?_, ?_, ?_, hmarked⟩
          · simpa only [step, hpending, hright] using h.runtime
          · simp only [step, hpending, hright]
          · simp [step, hpending, hright, h.queue, hplain]
  | receive surroundings =>
      cases hqueue : left.queue with
      | nil =>
          have hright : right.queue = [] := by simp [h.queue, hqueue]
          simp only [unrepeated, hqueue, headRepeated, Bool.false_eq_true, if_false,
            Option.some.injEq] at hshown
          subst hshown
          simpa only [step, hqueue, hright] using h
      | cons input rest =>
          simp only [unrepeated, hqueue, headRepeated] at hshown
          split_ifs at hshown with hrepeated
          cases hshown
          have hplain : isPlain input = true := by simpa [isPlain] using hrepeated
          have hright : right.queue = input :: rest.filter isPlain := by
            simp [h.queue, hqueue, hplain]
          refine ⟨?_, ?_, ?_, hmarked⟩
          · simp only [step, hqueue, hright, h.runtime]
          · simpa only [step, hqueue, hright] using h.pending
          · simp only [step, hqueue, hright]

end Related

end Typing

/-- Repeated presses are invisible where each one that the broker takes while it
listens is one of a mapping that is recorded as held: the run without them has
the same events, edge by edge. -/
theorem repeats_invisible (byKey : KeyTable κ) (mappings : List Mapping) (started : Instant)
    {happenings : List (Happening κ)}
    (h : (typing byKey mappings started).Along Typing.Recorded
      (typing byKey mappings started).start happenings) :
    ((typing byKey mappings started).run happenings).edges =
      ((typing byKey mappings started).run
        ((typing byKey mappings started).visible Typing.unrepeated
          (typing byKey mappings started).start happenings)).edges := by
  have hstart : Typing.Related (typing byKey mappings started).start
      (typing byKey mappings started).start := ⟨rfl, rfl, rfl, by simp [Typing.Marked, typing]⟩
  have hrelated := (typing byKey mappings started).simulation
    (typing byKey mappings started) Typing.unrepeated Typing.Recorded Typing.Related
    (fun _ _ _ hbefore hrecorded hhidden => hbefore.hidden hrecorded hhidden)
    (fun _ _ _ _ hbefore _ hshown => hbefore.shown hshown) hstart h
  have hruntime : ((typing byKey mappings started).run
      ((typing byKey mappings started).visible Typing.unrepeated
        (typing byKey mappings started).start happenings)).runtime =
      ((typing byKey mappings started).run happenings).runtime := hrelated.runtime
  simp only [Typing.edges, hruntime]

/-- The table of a configuration with the space bar only. -/
def spaceTable : KeyTable Key := KeyTable.push (fun _ => none) .space "space"

example : (keyboardTable [spaceMapping]).map (fun byKey => byKey .space) =
    .ok (spaceTable .space) := by decide +kernel

def surroundingsAt (now : Instant) : Surroundings := ⟨now, "session", .ok (), .ok ()⟩

def register : List (Happening Key) :=
  [.submit (.register (stuckChannel 8)), .receive (surroundingsAt 0)]

def openSession : List (Happening Key) :=
  [.submit (.handshake 1 exclusiveHandshake), .receive (surroundingsAt 1)]

def pressSpace : List (Happening Key) :=
  [.strike (.keyPress .space) true, .post, .receive (surroundingsAt 2)]

def repeatSpace : List (Happening Key) :=
  [.again .space true, .post, .receive (surroundingsAt 3)]

def releaseSpace : List (Happening Key) :=
  [.strike (.keyRelease .space) true, .post, .receive (surroundingsAt 4)]

theorem heldInSession_invisible :
    ((typing spaceTable [spaceMapping] 0).run
        (register ++ openSession ++ pressSpace ++ repeatSpace ++ releaseSpace)).edges =
      ((typing spaceTable [spaceMapping] 0).run
        ((typing spaceTable [spaceMapping] 0).visible Typing.unrepeated
          (typing spaceTable [spaceMapping] 0).start
          (register ++ openSession ++ pressSpace ++ repeatSpace ++ releaseSpace))).edges :=
  repeats_invisible spaceTable [spaceMapping] 0 (by decide +kernel)

/-- The key is held when the session is accepted. Its next repeat is a press of
the session, although no key has gone down in it. -/
theorem heldBeforeSession_visible :
    ((typing spaceTable [spaceMapping] 0).run
        (register ++ pressSpace ++ openSession ++ repeatSpace)).edges =
      [("primary", .pressed), ("primary", .released), ("primary", .pressed)] ∧
    ((typing spaceTable [spaceMapping] 0).run
        ((typing spaceTable [spaceMapping] 0).visible Typing.unrepeated
          (typing spaceTable [spaceMapping] 0).start
          (register ++ pressSpace ++ openSession ++ repeatSpace))).edges =
      [("primary", .pressed), ("primary", .released)] := by
  decide +kernel

end Usahp.Capture
