/-
# The objects of a device

`Open` makes an object for the bridge chip, one for the encoder and one for the receiver.
They refer to each other and through the first to the `USBWrapper_t`, so they have to be
deleted before that is closed or destroyed. `Close` deletes those that there are, and so
does the destructor, which calls it. `Open` may fail when it has made two or three.

A device is held together with the history of its objects, in which closing or destroying
the `USBWrapper_t` is a release.
-/

import HauppaugeUSB.Device.Opening
import HauppaugeUSB.Streams.Lifetimes

namespace HauppaugeUSB.Device

open HauppaugeUSB.Control HauppaugeUSB.Streams HauppaugeUSB.Wrappers

/-- The objects that `Open` makes. -/
inductive DevObject
  /-- `*m_fx2`. -/
  | fx2
  /-- `*m_encDev`. -/
  | encoder
  /-- `*m_rxDev`. -/
  | receiver
  deriving DecidableEq

/-- The object that a call of `Open` makes. -/
def OpenEvent.made : OpenEvent → Option DevObject
  | .newFx2 => some .fx2
  | .newEncoder => some .encoder
  | .newReceiver => some .receiver
  | _ => none

namespace OpenableDev

/-- The pointer to the object is not null. -/
def has (dev : OpenableDev) : DevObject → Bool
  | .fx2 => dev.fx2
  | .encoder => dev.encDev
  | .receiver => dev.rxDev

/-- What `HauppaugeDev::Close` deletes, in its order. -/
def deleted (dev : OpenableDev) : List DevObject :=
  (if dev.rxDev then [.receiver] else []) ++ (if dev.encDev then [.encoder] else []) ++
    if dev.fx2 then [.fx2] else []

/-- The device after `HauppaugeDev::Close`. -/
def closed (dev : OpenableDev) : OpenableDev :=
  { dev with rxDev := false, encDev := false, fx2 := false }

end OpenableDev

/-- A device with the history of its objects. -/
structure HeldDev where
  dev : OpenableDev
  life : List (LifeEvent DevObject)

namespace HeldDev

/-- The first device object. -/
def new (params : Parameters) (registry : Registry) : HeldDev := ⟨.new params registry, []⟩

/-- A device object is made. -/
def renew (held : HeldDev) (params : Parameters) (registry : Registry) : HeldDev :=
  { held with dev := .new params registry }

/-- `HauppaugeDev::Open` and its result. -/
def openDev (held : HeldDev) (settings : OpenSettings) (replies : OpenReplies) :
    Bool × HeldDev :=
  let before := { held.dev with opening := [] }
  let dev := (openDevice settings replies before).2
  ((openDevice settings replies).returnsTrue before,
    ⟨dev, held.life ++ (dev.opening.filterMap OpenEvent.made).map .create⟩)

/-- `HauppaugeDev::Close`, and `~HauppaugeDev`, which calls it. -/
def close (held : HeldDev) : HeldDev :=
  ⟨held.dev.closed, held.life ++ held.dev.deleted.map .delete⟩

/-- The `USBWrapper_t` is closed or destroyed. -/
def release (held : HeldDev) : HeldDev := { held with life := held.life ++ [.release] }

/-- The device has no objects. -/
def Idle (held : HeldDev) : Prop := ∀ object, held.dev.has object = false

/-- The history accounts for the objects, and so far nothing has been left at a release. -/
structure Sound (held : HeldDev) : Prop where
  accounts : Accounts held.life held.dev.has
  tornDown : TornDown held.life

end HeldDev

/-- `Open` will succeed: the encoder answers, and the output can be opened. -/
def Openable (settings : OpenSettings) (replies : OpenReplies) : Prop :=
  replies.encoderInit = true ∧
    (settings.output = "" ∨ settings.output = "stdout" ∨ ∃ fd, replies.openFile = .ok fd)

/-- The objects that have been made in a call of `Open`, and no others, are there. -/
structure Made (objects : List DevObject) (dev : OpenableDev) : Prop where
  calls : dev.opening.filterMap OpenEvent.made = objects
  present : dev.has = fun object => decide (object ∈ objects)

/-- All three objects have been made. -/
def AllMade (dev : OpenableDev) : Prop := Made [.fx2, .encoder, .receiver] dev

/-- `Open` has failed, and left some of the objects behind. -/
def LeftBehind (dev : OpenableDev) : Prop := Made [.fx2, .encoder] dev ∨ AllMade dev

section Made

variable {settings : OpenSettings} {replies : OpenReplies} {objects : List DevObject}
  {E : OpenableDev → Prop}

/-- Calls that make nothing. -/
theorem Made.emit {dev : OpenableDev} {events : List OpenEvent} (hmade : Made objects dev)
    (hevents : events.filterMap OpenEvent.made = []) : Made objects (dev.emit events) where
  calls := by
    rw [OpenableDev.emit, List.filterMap_append, hevents, List.append_nil]
    exact hmade.calls
  present := hmade.present

theorem meets_perform_made {events : List OpenEvent}
    (hevents : events.filterMap OpenEvent.made = []) :
    Stage.Meets (Made objects) (perform events) (fun _ => Made objects) E :=
  .update fun _ hmade => hmade.emit hevents

/-- A new object. -/
theorem meets_new_made {event : OpenEvent} {object : DevObject} {f : OpenableDev → OpenableDev}
    (hevent : event.made = some object) (hcall : ∀ dev, (f dev).opening = dev.opening ++ [event])
    (hhas : ∀ dev, (f dev).has = Function.update dev.has object true) :
    Stage.Meets (Made objects) (.update f) (fun _ => Made (objects ++ [object])) E := by
  refine .update fun dev hmade => ⟨?_, ?_⟩
  · simp [hcall, hevent, hmade.calls]
  · funext other
    rw [hhas, hmade.present]
    by_cases hother : other = object
    · simp [hother]
    · simp [hother]

/-- Failing makes nothing. -/
theorem meets_failWith_made (message : String) {Q : Unit → OpenableDev → Prop} :
    Stage.Meets (Made objects) (failWith message) Q (Made objects) :=
  .update_fail fun _ hmade => ⟨hmade.calls, hmade.present⟩

theorem firmwareLoop_made (highSpeed : ℕ → Bool) (left idx : ℕ) :
    (firmwareLoop highSpeed left idx).filterMap OpenEvent.made = [] := by
  induction left generalizing idx with
  | zero => rfl
  | succ left ih =>
      rw [firmwareLoop]
      split
      · rfl
      · rw [List.filterMap_append, ih]
        rfl

theorem meets_openFx2_made :
    Stage.Meets (Made []) (openFx2 settings replies) (fun _ => Made [.fx2]) E := by
  refine (meets_perform_made ?_).bind fun _ => (meets_new_made rfl (fun _ => rfl) ?_).bind fun _ =>
    (meets_perform_made (firmwareLoop_made _ _ _)).bind fun _ => meets_perform_made rfl
  · split <;> rfl
  · intro dev
    funext object
    cases object <;> rfl

/-- The encoder stays whether or not it can be initialized. -/
theorem meets_openEncoder_made :
    Stage.Meets (Made [.fx2]) (openEncoder replies)
      (fun _ dev => Made [.fx2, .encoder] dev ∧ replies.encoderInit = true)
      (fun dev => Made [.fx2, .encoder] dev ∧ replies.encoderInit = false) := by
  have hnew : Stage.Meets (Made [.fx2])
      (.update fun dev => { dev.emit [.newEncoder] with encDev := true })
      (fun _ => Made [.fx2, .encoder])
      (fun dev => Made [.fx2, .encoder] dev ∧ replies.encoderInit = false) := by
    refine meets_new_made rfl (fun _ => rfl) fun dev => ?_
    funext object
    cases object <;> rfl
  refine hnew.bind fun _ => (meets_perform_made rfl).bind fun _ => .ite (fun hinit => ?_)
    fun hinit => ?_
  · exact .pure fun dev hmade => ⟨hmade, hinit⟩
  · exact (meets_failWith_made _).weaken (fun _ hmade => hmade) (fun _ _ hmade => hmade)
      fun _ hmade => ⟨hmade, by simpa using hinit⟩

theorem meets_openReceiver_made :
    Stage.Meets (Made [.fx2, .encoder]) (openReceiver settings) (fun _ => AllMade) E := by
  refine (meets_new_made rfl (fun _ => rfl) ?_).bind fun _ => (meets_perform_made rfl).bind
    fun _ => meets_perform_made rfl
  intro dev
  funext object
  cases object <;> rfl

theorem meets_openFile_made (name : String) (replies : OpenReplies) :
    Stage.Meets AllMade (openFile name replies)
      (fun _ dev => AllMade dev ∧ (name = "stdout" ∨ ∃ fd, replies.openFile = .ok fd))
      (fun dev => AllMade dev ∧ ¬ (name = "stdout" ∨ ∃ fd, replies.openFile = .ok fd)) := by
  refine .ite (fun hstdout => .update fun dev hmade => ?_) fun hname => ?_
  · exact ⟨⟨hmade.calls, hmade.present⟩, .inl hstdout⟩
  · cases hfile : replies.openFile with
    | ok fd =>
        refine .update fun dev hmade => ⟨⟨?_, hmade.present⟩, .inr ⟨fd, rfl⟩⟩
        exact (hmade.emit rfl).calls
    | error message =>
        have htried : Stage.Meets AllMade
            (.update fun dev => { dev.emit [.openFile name none] with fd := none })
            (fun _ => AllMade) AllMade :=
          .update fun dev hmade => ⟨(hmade.emit rfl).calls, hmade.present⟩
        have hfailed := htried.bind fun _ =>
          meets_failWith_made ("Failed to open '" ++ name ++ "' :" ++ message)
            (Q := fun _ _ => False)
        exact hfailed.weaken (fun _ hmade => hmade) (fun _ _ hmade => hmade.elim)
          fun _ hmade => ⟨hmade, by simp [hname]⟩

theorem meets_openOutput_made :
    Stage.Meets AllMade (openOutput settings replies)
      (fun _ dev => AllMade dev ∧ (settings.output = "" ∨ settings.output = "stdout" ∨
        ∃ fd, replies.openFile = .ok fd))
      (fun dev => AllMade dev ∧ ¬ (settings.output = "" ∨ settings.output = "stdout" ∨
        ∃ fd, replies.openFile = .ok fd)) := by
  refine .ite (fun hnone => .pure fun dev hmade => ⟨hmade, .inl hnone⟩) fun hsome => ?_
  have hopened := meets_openFile_made settings.output replies
  refine (hopened.weaken (fun _ hmade => hmade) (fun _ _ hdev => hdev) fun dev hdev => ?_).bind
    fun _ => .update fun dev hdev => ⟨hdev.1.emit ?_, .inr hdev.2⟩
  · exact ⟨hdev.1, fun hopenable => hopenable.elim hsome hdev.2⟩
  · cases dev.fd <;> rfl

/-- `Open` makes all objects when it succeeds, and leaves some behind when it fails. -/
theorem meets_openDevice_made :
    Stage.Meets (Made []) (openDevice settings replies)
      (fun _ dev => AllMade dev ∧ Openable settings replies)
      (fun dev => LeftBehind dev ∧ ¬ Openable settings replies) := by
  have hencoder : Stage.Meets (Made [.fx2]) (openEncoder replies)
      (fun _ dev => Made [.fx2, .encoder] dev ∧ replies.encoderInit = true)
      (fun dev => LeftBehind dev ∧ ¬ Openable settings replies) :=
    meets_openEncoder_made.weaken (fun _ hmade => hmade) (fun _ _ hdev => hdev)
      fun dev hdev => ⟨.inl hdev.1, fun hopenable => by simp [hdev.2, Openable] at hopenable⟩
  refine meets_openFx2_made.bind fun _ => hencoder.bind fun _ => .of_and fun hinit =>
    meets_openReceiver_made.bind fun _ => ?_
  have houtput : Stage.Meets AllMade (openOutput settings replies)
      (fun _ dev => AllMade dev ∧ Openable settings replies)
      (fun dev => LeftBehind dev ∧ ¬ Openable settings replies) :=
    meets_openOutput_made.weaken (fun _ hmade => hmade)
      (fun _ _ hdev => ⟨hdev.1, hinit, hdev.2⟩)
      fun _ hdev => ⟨.inr hdev.1, fun hopenable => hdev.2 hopenable.2⟩
  refine houtput.bind fun _ => .of_and fun hopenable => .update fun dev hmade => ⟨?_, hopenable⟩
  exact hmade.emit (by split <;> rfl)

end Made

namespace HeldDev

variable {held : HeldDev} {settings : OpenSettings} {replies : OpenReplies}

theorem Idle.made (hidle : held.Idle) : Made [] { held.dev with opening := [] } where
  calls := rfl
  present := funext hidle

theorem Idle.accounts (hidle : held.Idle) (hsound : held.Sound) :
    Accounts held.life fun _ => false := by
  have hnone : held.dev.has = fun _ => false := funext hidle
  exact hnone ▸ hsound.accounts

/-- A device without objects opens exactly when the encoder and the output allow it. -/
theorem Idle.openDev_iff (hidle : held.Idle) :
    (held.openDev settings replies).1 = true ↔ Openable settings replies := by
  constructor
  · intro hopened
    obtain ⟨-, hafter⟩ := meets_openDevice_made.succeeded hidle.made hopened
    exact hafter.2
  · intro hopenable
    by_contra hfailed
    have hfalse : (openDevice settings replies).returnsTrue { held.dev with opening := [] } =
        false := by simpa [openDev] using hfailed
    exact (meets_openDevice_made.failed hidle.made hfalse).2 hopenable

/-- Whether or not it opens, it has objects afterwards. -/
theorem Idle.leftBehind_openDev (hidle : held.Idle) (settings : OpenSettings)
    (replies : OpenReplies) : LeftBehind (held.openDev settings replies).2.dev :=
  (meets_openDevice_made.weaken (fun _ hmade => hmade) (fun _ _ hdev => .inr hdev.1)
    fun _ hdev => hdev.1).leaves hidle.made

theorem Idle.not_idle_openDev (hidle : held.Idle) :
    ¬ (held.openDev settings replies).2.Idle := by
  intro hnone
  have hfx2 := hnone .fx2
  rcases hidle.leftBehind_openDev settings replies with hmade | hmade
  · simp [hmade.present] at hfx2
  · simp [hmade.present] at hfx2

/-- The history accounts for the objects that `Open` makes, whether or not it fails. -/
theorem Sound.openDev (hsound : held.Sound) (hidle : held.Idle) :
    (held.openDev settings replies).2.Sound := by
  have hmade : ∃ objects, objects.Nodup ∧ Made objects (held.openDev settings replies).2.dev :=
    (hidle.leftBehind_openDev settings replies).elim (fun hmade => ⟨_, by decide, hmade⟩)
      fun hmade => ⟨_, by decide, hmade⟩
  obtain ⟨objects, honce, hmade⟩ := hmade
  have hlife : (held.openDev settings replies).2.life = held.life ++ objects.map .create := by
    rw [← hmade.calls]
    rfl
  refine ⟨?_, ?_⟩
  · rw [hlife, hmade.present]
    exact (hidle.accounts hsound).create honce
  · rw [hlife, tornDown_append (by simp)]
    exact hsound.tornDown

theorem idle_new (params : Parameters) (registry : Registry) :
    (HeldDev.new params registry).Idle := by
  intro object
  cases object <;> rfl

theorem sound_new (params : Parameters) (registry : Registry) :
    (HeldDev.new params registry).Sound := by
  have hnone : (HeldDev.new params registry).dev.has = fun _ => false :=
    funext (idle_new params registry)
  exact ⟨hnone ▸ accounts_nil, tornDown_nil⟩

theorem Sound.renew {params : Parameters} {registry : Registry} (hsound : held.Sound)
    (hidle : held.Idle) : (held.renew params registry).Sound := by
  have hnone : (held.renew params registry).dev.has = fun _ => false :=
    funext (idle_new params registry)
  refine ⟨?_, hsound.tornDown⟩
  rw [hnone]
  exact hidle.accounts hsound

theorem idle_close : held.close.Idle := by
  intro object
  cases object <;> rfl

/-- `Close` deletes the objects that there are. -/
theorem Sound.close (hsound : held.Sound) : held.close.Sound := by
  have hall : ∀ object, object ∈ held.dev.deleted ↔ held.dev.has object = true := by
    intro object
    cases object <;> simp [OpenableDev.deleted, OpenableDev.has]
  have honce : held.dev.deleted.Nodup := by
    unfold OpenableDev.deleted
    split <;> split <;> split <;> decide
  have hnone : held.close.dev.has = fun _ => false := funext idle_close
  refine ⟨?_, ?_⟩
  · rw [hnone]
    exact hsound.accounts.delete honce hall
  · exact (tornDown_append (by simp)).mpr hsound.tornDown

/-- Releasing what a device without objects refers to. -/
theorem Sound.release (hsound : held.Sound) (hidle : held.Idle) : held.release.Sound where
  accounts := hsound.accounts.release
  tornDown := tornDown_append_singleton.mpr
    ⟨hsound.tornDown, fun _ => hsound.accounts.allDeleted_iff.mpr hidle⟩

/-- Releasing what a device with objects refers to. -/
theorem Sound.idle_of_release (hsound : held.Sound) (htorn : TornDown held.release.life) :
    held.Idle :=
  hsound.accounts.allDeleted_iff.mp ((tornDown_append_singleton.mp htorn).2 rfl)

end HeldDev

end HauppaugeUSB.Device
