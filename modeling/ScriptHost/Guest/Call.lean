import ScriptHost.Guest.Machine

/-!
# Calls from the host

How the host calls guest functions, and what the errors of guest code are to it.

* `errorOf`: the host's view of an error value. An error that the host raised keeps its identity; anything
  else is told by its text.
* `callGuestFunction`: the results of a call, or its error.
* `readField`: a field as guest code would read it.
-/

namespace ScriptHost.Guest

/-! ## Errors -/

/-- The text of a string as far as the host sees it: it ends before the first zero byte. -/
def hostText (b : ByteArray) : String :=
  Text.decodeLossy ⟨(b.data.toList.takeWhile (· != 0)).toArray⟩

/-- An error with a text. -/
def runtimeError (b : ByteArray) : GuestError :=
  .runtime (hostText b ++ "\n" ++ tracebackHeading)

/-- How often the text of an error may itself fail to be written. -/
def maxRetries : Nat := 20

/-- The host's view of an error value. If its text cannot be written, the error that keeps it from being
written takes its place, at most `retries` times. -/
def errorOf : Nat → Value → WorldM GuestError
  | 0, _ => pure (.runtime "error in error handling")
  | retries + 1, e => fun w =>
    match e with
    | .object (.failure r) => (w.guest.failure r, w)
    | .str b => (runtimeError b, w)
    | v =>
      match callFunction (.native (.base .tostring)) [v] w with
      | (.finished vs, w) =>
        match vs.headD .nil with
        | .str b => (runtimeError b, w)
        | _ => (runtimeError ByteArray.empty, w)
      | (.failed e, w) => errorOf retries e w
      | (.exhausted, w) => (.runtime "too many steps", w)

/-! ## Calls -/

/-- Call a guest function. -/
def callGuestFunction (f : Value) (args : List Value) : WorldM (Except GuestError (List Value)) :=
  fun w =>
    match callFunction f args w with
    | (.finished vs, w) => (.ok vs, w)
    | (.failed e, w) =>
      let (e, w) := errorOf maxRetries e w
      (.error e, w)
    | (.exhausted, w) => (.error (.runtime "too many steps"), w)

/-- What native code comes to when the host runs it. -/
def runNative {α : Type} (act : NativeM α) : WorldM (Except GuestError α) := fun w =>
  let context : CallContext := ⟨fun f args w => callFunction f args w, [], none⟩
  match act context w with
  | (.ok a, w) => (.ok a, w)
  | (.error (.raise e), w) =>
    let (e, w) := errorOf maxRetries e w
    (.error e, w)
  | (.error (.fault message), w) => (.error (runtimeError message.toUTF8), w)
  | (.error (.hostFault e), w) => (.error (.callback tracebackHeading e), w)
  | (.error _, w) => (.error (.runtime "not a value"), w)

/-- Read a field. -/
def readField (v k : Value) : WorldM (Except GuestError Value) := runNative (getField v k)

/-- Write a field. -/
def writeField (v k x : Value) : WorldM (Except GuestError Unit) := runNative (setField v k x)

end ScriptHost.Guest
