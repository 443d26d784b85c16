import Usahp.Library.Holds
import Usahp.Capture.Keyboard

/-!
What the system gets of the keyboard. The callback decides for each edge of a key
by itself, from the capture flag as it is at that moment. The two edges of a hold
are treated alike when the flag is the same at both; a pause or a resume in
between leaves the system with one edge of the two.
-/

namespace Usahp.Capture

open Usahp.Library Usahp.Broker

/-- The key of an event, and whether it goes down. -/
def KeyEvent.change {κ : Type*} : KeyEvent κ → Option (κ × Bool)
  | .keyPress key => some (key, true)
  | .keyRelease key => some (key, false)
  | .other => none

/-- The sends of one callback. The receiver may be dropped after some of them;
`none` is a broker that runs. Returns whether all were taken. -/
def sendInputs (closesAfter : Option Nat) (inputs : List PhysicalEvent) :
    List PhysicalEvent × Bool :=
  match closesAfter with
  | none => (inputs, true)
  | some count => (inputs.take count, decide (inputs.length ≤ count))

/-- The two keyboard hooks: `rdev::grab`, and the event tap on macOS. -/
inductive Hook where
  | grab
  | tap
  deriving DecidableEq

/-- Whether the hook passes an event on to the system when the sends of its inputs
have failed. -/
def Hook.passesUnsent : Hook → Bool
  | .grab => true
  | .tap => false

section Callback

variable {κ : Type*}

/-- What the callback sends, and whether it passes the event on. -/
def Hook.callback (hook : Hook) (byKey : KeyTable κ) (enabled : Bool)
    (closesAfter : Option Nat) (event : KeyEvent κ) : List PhysicalEvent × Bool :=
  if !enabled then ([], true)
  else
    match event.change with
    | none => ([], true)
    | some (key, down) =>
        match byKey key with
        | none => ([], true)
        | some _ =>
            let (sent, all) := sendInputs closesAfter
              (inputsOf byKey key (if down then .pressed else .released))
            (sent, !all && hook.passesUnsent)

/-- The event is an edge of a key of the table. -/
def mapped (byKey : KeyTable κ) (event : KeyEvent κ) : Bool :=
  event.change.any fun change => (byKey change.1).isSome

/-- While the broker runs, the hooks agree: with the flag up they send what is
mapped and keep it from the system. -/
theorem Hook.callback_running (hook : Hook) (byKey : KeyTable κ) (enabled : Bool)
    (event : KeyEvent κ) :
    hook.callback byKey enabled none event =
      (keyboardInputs byKey enabled event, !(enabled && mapped byKey event)) := by
  unfold Hook.callback keyboardInputs mapped
  cases enabled with
  | false => rfl
  | true =>
      cases event with
      | other => rfl
      | keyPress key =>
          cases hkey : byKey key <;> simp [KeyEvent.change, hkey, sendInputs, inputsOf]
      | keyRelease key =>
          cases hkey : byKey key <;> simp [KeyEvent.change, hkey, sendInputs, inputsOf]

/-- Once the broker is gone, the grab leaves the keyboard to the system; the tap
still keeps what is mapped. -/
theorem Hook.callback_closed (hook : Hook) {byKey : KeyTable κ}
    (hfilled : ∀ key, byKey key ≠ some []) (enabled : Bool) (event : KeyEvent κ) :
    hook.callback byKey enabled (some 0) event =
      ([], !(enabled && mapped byKey event) || hook.passesUnsent) := by
  unfold Hook.callback mapped
  cases enabled with
  | false => rfl
  | true =>
      cases hchange : event.change with
      | none => rfl
      | some change =>
          obtain ⟨key, down⟩ := change
          cases hkey : byKey key with
          | none => simp [hkey]
          | some ids =>
              have hids : ids ≠ [] := by
                rintro rfl
                exact hfilled key hkey
              simp [hkey, sendInputs, inputsOf, hids]

end Callback

/-- An event that the callback has dealt with: the flag it found, and whether it
passed the event on. -/
structure Handled (κ : Type*) where
  event : KeyEvent κ
  captured : Bool
  passed : Bool

structure Grabbing (κ : Type*) where
  capture : Broker.CaptureControl
  handled : List (Handled κ)

/-- The callback gets an event, or the broker pauses or resumes capture. -/
inductive GrabMove (κ : Type*) where
  | event (event : KeyEvent κ)
  | pause (reply : Except String Unit)
  | resume (reply : Except String Unit)

section Grabbing

variable {κ : Type*}

def Grabbing.step (hook : Hook) (byKey : KeyTable κ) (grabbing : Grabbing κ) :
    GrabMove κ → Grabbing κ
  | .event event =>
      let enabled := grabbing.capture.enabled
      { grabbing with
        handled := grabbing.handled ++
          [⟨event, enabled, (hook.callback byKey enabled none event).2⟩] }
  | .pause reply => { grabbing with capture := (grabbing.capture.pause reply).2 }
  | .resume reply => { grabbing with capture := (grabbing.capture.resume reply).2 }

/-- The keyboard while the broker runs. -/
def grabbing (hook : Hook) (byKey : KeyTable κ) : Machine (Grabbing κ) (GrabMove κ) where
  start := { capture := { enabled := true }, handled := [] }
  step := Grabbing.step hook byKey

/-- What the hardware does in a run. -/
def keyEvents (moves : List (GrabMove κ)) : List (KeyEvent κ) :=
  moves.filterMap fun
    | .event event => some event
    | .pause _ => none
    | .resume _ => none

/-- Everything that the hardware does is dealt with, in order, and the flag
decides about the mapped keys. -/
structure Dealt (byKey : KeyTable κ) (moves : List (GrabMove κ)) (grabbing : Grabbing κ) :
    Prop where
  events : grabbing.handled.map (·.event) = keyEvents moves
  passed : ∀ handled ∈ grabbing.handled,
    handled.passed = !(handled.captured && mapped byKey handled.event)

theorem dealt_run (hook : Hook) (byKey : KeyTable κ) (moves : List (GrabMove κ)) :
    Dealt byKey moves ((grabbing hook byKey).run moves) := by
  apply (grabbing hook byKey).history_invariant (Dealt byKey)
  · exact ⟨rfl, by simp [grabbing]⟩
  · intro moves move h
    generalize (grabbing hook byKey).run moves = before at h ⊢
    cases move with
    | pause reply =>
        exact ⟨by simpa [keyEvents, grabbing, Grabbing.step] using h.events, h.passed⟩
    | resume reply =>
        exact ⟨by simpa [keyEvents, grabbing, Grabbing.step] using h.events, h.passed⟩
    | event event =>
        constructor
        · have hevents := h.events
          simp only [keyEvents] at hevents ⊢
          simp [grabbing, Grabbing.step, hevents]
        · intro handled hmem
          rcases List.mem_append.mp hmem with hearlier | hnow
          · exact h.passed handled hearlier
          · rw [List.mem_singleton.mp hnow, hook.callback_running]

variable [DecidableEq κ]

/-- The presses with their releases. -/
def Grabbing.holds (grabbing : Grabbing κ) : List (Handled κ × Handled κ) :=
  Library.holds (fun handled => handled.event.change) (fun _ => none) grabbing.handled

/-- The system gets presses and releases in turn, and at no time it has a key down
that is up. -/
def Grabbing.Unstuck (grabbing : Grabbing κ) : Prop :=
  Tidy (fun handled => handled.event.change) Handled.passed (fun _ => false) (fun _ => false)
    grabbing.handled

/-- In every run of a keyboard whose keys go down and up in turn: what is not
mapped is passed on; a press of a mapped key and its release are treated alike
exactly when the flag is the same at both; and the system gets no release without
its press and no key stuck exactly in the runs where that is so for every hold. -/
theorem treated_alike_iff (hook : Hook) (byKey : KeyTable κ) (moves : List (GrabMove κ))
    (hhardware : Exact (fun _ => false) ((keyEvents moves).filterMap KeyEvent.change)) :
    let final := (grabbing hook byKey).run moves
    final.handled.map (·.event) = keyEvents moves ∧
    (∀ handled ∈ final.handled, mapped byKey handled.event = false → handled.passed = true) ∧
    (∀ hold ∈ final.holds, mapped byKey hold.1.event = true →
      (hold.1.passed = hold.2.passed ↔ hold.1.captured = hold.2.captured)) ∧
    ((∀ hold ∈ final.holds, mapped byKey hold.1.event = true →
      hold.1.captured = hold.2.captured) ↔ final.Unstuck) := by
  intro final
  have hdealt := dealt_run hook byKey moves
  have hunmapped : ∀ handled ∈ final.handled, mapped byKey handled.event = false →
      handled.passed = true := by
    intro handled hmem hfree
    rw [hdealt.passed handled hmem, hfree, Bool.and_false]
    rfl
  have hpair : ∀ hold ∈ final.holds, mapped byKey hold.1.event = mapped byKey hold.2.event ∧
      hold.1.passed = (!(hold.1.captured && mapped byKey hold.1.event)) ∧
      hold.2.passed = (!(hold.2.captured && mapped byKey hold.2.event)) := by
    intro hold hmem
    obtain ⟨hpress, hrelease, key, hdown, hup⟩ := mem_holds (by simp) hdealt.passed hmem
    refine ⟨?_, hpress, hrelease⟩
    simp [mapped, hdown, hup]
  have halike : ∀ hold ∈ final.holds, mapped byKey hold.1.event = true →
      (hold.1.passed = hold.2.passed ↔ hold.1.captured = hold.2.captured) := by
    intro hold hmem hmapped
    obtain ⟨hsame, hpress, hrelease⟩ := hpair hold hmem
    rw [hpress, hrelease, ← hsame, hmapped, Bool.and_true, Bool.and_true, Bool.not_inj_iff]
  refine ⟨hdealt.events, hunmapped, halike, ?_⟩
  have hexact : Exact (fun _ => false) (final.handled.filterMap fun handled =>
      handled.event.change) := by
    have hall := hhardware
    rw [← hdealt.events, List.filterMap_map] at hall
    exact hall
  have hbegun : Begun Handled.passed (fun _ : κ => (none : Option (Handled κ)))
      (fun _ => false) (fun _ => false) := ⟨by simp, by simp⟩
  rw [Grabbing.Unstuck, ← alike_iff_tidy hbegun hexact]
  constructor
  · intro hflags hold hmem
    cases hmapped : mapped byKey hold.1.event with
    | true => exact (halike hold hmem hmapped).mpr (hflags hold hmem hmapped)
    | false =>
        obtain ⟨hsame, hpress, hrelease⟩ := hpair hold hmem
        rw [hpress, hrelease, ← hsame, hmapped, Bool.and_false, Bool.and_false]
  · intro hpassed hold hmem hmapped
    exact (halike hold hmem hmapped).mp (hpassed hold hmem)

end Grabbing

/-- The space bar is struck during capture, and again during a pause. -/
theorem strokesApart_alike :
    ((grabbing .grab spaceTable).run
      [.event (.keyPress .space), .event (.keyRelease .space), .pause (.ok ()),
        .event (.keyPress .space), .event (.keyRelease .space)]).Unstuck :=
  (treated_alike_iff .grab spaceTable _ (by decide +kernel)).2.2.2.mp (by decide +kernel)

def heldIntoPause : List (GrabMove Key) :=
  [.event (.keyPress .space), .pause (.ok ()), .event (.keyRelease .space)]

def heldIntoCapture : List (GrabMove Key) :=
  [.pause (.ok ()), .event (.keyPress .space), .resume (.ok ()), .event (.keyRelease .space)]

/-- A pause while the space bar is held passes on a release without its press; a
resume keeps the release of a press that was passed on, and the key is stuck. -/
theorem heldAcrossSwitch_unlike :
    Exact (fun _ => false) ((keyEvents heldIntoPause).filterMap KeyEvent.change) ∧
    Exact (fun _ => false) ((keyEvents heldIntoCapture).filterMap KeyEvent.change) ∧
    mapped spaceTable (.keyPress .space) = true ∧
    ((grabbing .grab spaceTable).run heldIntoPause).holds.map
      (fun hold => (hold.1.passed, hold.2.passed)) = [(false, true)] ∧
    ((grabbing .grab spaceTable).run heldIntoCapture).holds.map
      (fun hold => (hold.1.passed, hold.2.passed)) = [(true, false)] ∧
    replay (fun _ => false) ((((grabbing .grab spaceTable).run heldIntoCapture).handled.filter
      Handled.passed).filterMap fun handled => handled.event.change) Key.space = true := by
  decide +kernel

end Usahp.Capture
