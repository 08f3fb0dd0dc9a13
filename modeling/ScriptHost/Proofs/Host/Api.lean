import ScriptHost.Host

/-!
# What guest code can do to its host

Guest code reaches the host only through the objects that it is given: control objects, loggers, schedulers
and tasks. An `Act` is one use of one of them, or a step of the guest that stays within the guest. Whatever a
guest function does is a list of acts, which may depend on anything (`Guest.KeepsToApi`); that is all that the
theory of the host asks of a guest.

* `Act.perform`: what an act does, with the host's own operations.
* `Act.IsOwn`: the act uses only the objects of one script: its control object and its scheduler.
-/

namespace ScriptHost

/-- One thing that guest code does. Control objects are given by their number, schedulers by their
script. -/
inductive Act (γ α : Type) where
  | think (state : γ)
  | report (record : Record)
  | onLoad (number : Nat) (hook : α)
  | onUnload (number : Nat) (hook : α)
  | declare (number : Nat) (command : DeclaredCommand α)
  | share (number : Nat) (object : String) (value : Option α)
  | unshare (number : Nat) (object : String)
  | schedule (script : String) (callable : α) (lane : Lane) (mode : Mode)
  | cancel (script : String) (id : TaskId)

namespace Host

variable {γ α : Type}

/-- The script in whose name a control object acts. -/
def controlName (h : Host γ α) (number : Nat) : String :=
  ((h.control? number).map Control.name).getD ""

end Host

namespace Act

variable {γ α : Type}

/-- Do it. -/
def perform : Act γ α → Host γ α → Host γ α
  | .think state, h => { h with guest := state }
  | .report record, h => (log (m := HostM γ α) record h).2
  | .onLoad number hook, h => (Host.changeControl number (fun c => c.addLoadHook hook) h).2
  | .onUnload number hook, h => (Host.changeControl number (fun c => c.addUnloadHook hook) h).2
  | .declare number command, h => (Host.changeControl number (fun c => c.addCommand command) h).2
  | .share number object value, h => (Host.share (.script (h.controlName number)) object value h).2
  | .unshare number object, h => (Host.unshare (.script (h.controlName number)) object h).2
  | .schedule script callable lane mode, h => (Host.schedule script callable lane mode h).2
  | .cancel script id, h => (Host.cancelTask script id h).2

/-- Do one thing after the other. -/
def performAll (acts : List (Act γ α)) (h : Host γ α) : Host γ α :=
  acts.foldl (fun h act => act.perform h) h

/-- The act uses only the objects of a script with a control object. -/
def IsOwn (script : String) (number : Nat) : Act γ α → Prop
  | .think _ => True
  | .report _ => True
  | .onLoad n _ => n = number
  | .onUnload n _ => n = number
  | .declare n _ => n = number
  | .share n _ _ => n = number
  | .unshare n _ => n = number
  | .schedule s _ _ _ => s = script
  | .cancel s _ => s = script

end Act

/-- Whatever the guest does to the host, it does through its objects. -/
structure Guest.KeepsToApi {γ α : Type} (g : Guest γ α) : Prop where
  createGlobals : ∀ name folder number h, ∃ acts,
    (g.createGlobals name folder number h).2 = Act.performAll acts h
  compile : ∀ name globals source h, ∃ acts,
    (g.compile name globals source h).2 = Act.performAll acts h
  call : ∀ f args h, ∃ acts, (g.call f args h).2 = Act.performAll acts h
  readVariable : ∀ globals path h, ∃ acts, (g.readVariable globals path h).2 = Act.performAll acts h

/-- The function, when it is called at this moment, does only what its script's own objects allow. -/
def Guest.CallIsOwn {γ α : Type} (g : Guest γ α) (script : String) (number : Nat) (f : α)
    (h : Host γ α) : Prop :=
  ∃ acts : List (Act γ α), (∀ act ∈ acts, act.IsOwn script number) ∧
    (g.run f h).2 = Act.performAll acts h

end ScriptHost
