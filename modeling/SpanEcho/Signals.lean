import SpanEcho.Kernel.World

/-!
# Signals

An interrupt and a termination request ask the server to stop; a broken pipe is ignored, since the
send that meets it fails as well. The handlers do not restart an interrupted wait.
-/

namespace SpanEcho.Signals

def interrupt : Nat := 2

def brokenPipe : Nat := 13

def terminate : Nat := 15

variable {κ : Type} [Kernel κ]

def setDisposition (signal : Nat) (disposition : Disposition) : Sys κ Unit := do
  match ← Sys.call (.setDisposition signal disposition false) with
  | .ok _ =>
    Action.change fun w => { w with dispositions := (signal, disposition) :: w.dispositions }
  | .failed errno => Action.fail (.system "sigaction" errno.recognized)
  | .notOpen => Action.fail (.system "sigaction" .badDescriptor)

/-- Sets the three dispositions, up to the first that the kernel refuses. -/
def install : Sys κ Unit := do
  setDisposition interrupt .handler
  setDisposition terminate .handler
  setDisposition brokenPipe .ignore

/-- Lets a signal arrive; answers whether a handler was run. -/
def raise (signal : Nat) : Sys κ Bool := fun w =>
  (.ok (w.disposition signal = .handler), w.notice (.signal signal))

end SpanEcho.Signals
