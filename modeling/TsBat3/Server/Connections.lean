import TsBat3.Server.Commands
import TsBat3.Foundation.Machine

/-! # The connections

`processMySocket` opens the port when it is not open, takes in a client that knocks and
serves the clients that have sent something. The daemon calls it in every turn of its main
loop until a client ends the daemon.
-/

namespace TsBat3

section Connections

variable {F : Type} (sys : Answers)

/-- The loop that collects the connected clients for `select`. -/
def selectable : List Nat → Server F (List Int)
  | [] => pure []
  | cnt :: cnts => do
      let value ← connected cnt
      let others ← selectable cnts
      return if value > 0 then (cnt : Int) :: others else others

/-- What `processMySocket` does with the descriptor of a client that has knocked. -/
def place (tempfd : Int) : Server F Unit := do
  logabba L_NOTICE "Accepted knocking person on sockfd %d" [.int tempfd]
  if tempfd ≥ MAXSFD then
    logabba L_MIN "To much connected clients" []
    let _ ← writeFd sys tempfd "To much connected clients" []
    close tempfd
  else connect tempfd 1

/-- Someone has knocked at the port. -/
def takeIn : Server F Unit := do
  logabba L_MIN "Someone knocks" []
  let tempfd ← acceptSocket sys
  place sys tempfd

/-- The loop of `closeMySocket` over the table. -/
def closeAll : List Nat → Server F Unit
  | [] => pure ()
  | fd :: fds => do
      closeFd fd
      closeAll fds

def closeMySocket (sockfd : Int) : Server F Unit := do
  closeAll (List.range MAXSFD)
  close sockfd

/-- The loop that serves the clients, with the descriptors that are ready. -/
def serve (sockfd : Int) (rfds : Int → Bool) : List Nat → Server F MySock
  | [] => return .OKAY
  | cnt :: cnts => do
      if ¬ (← connected cnt) > 0 then serve sockfd rfds cnts
      else if rfds cnt then
        logabba L_NOTICE "FD_ISSET on fd=%i" [.int cnt]
        match ← readSocket sys cnt with
        | .QUIT =>
            closeFd cnt
            serve sockfd rfds cnts
        | .END =>
            closeMySocket sockfd
            return .END
        | _ => serve sockfd rfds cnts
      else serve sockfd rfds cnts

/-- A client that knocks is taken in. -/
def answerKnock (knocks : Bool) : Server F Unit := do
  if knocks then takeIn sys else return ()

/-- What `processMySocket` does while the port is open. -/
def attend (sockfd : Int) : Server F MySock := do
  let clients ← selectable (List.range MAXSFD)
  match sys.select with
  | none => return .failed
  | some ready =>
      let rfds (fd : Int) : Bool := ready fd && (fd == sockfd || clients.contains fd)
      answerKnock sys (rfds sockfd)
      serve sys sockfd rfds (List.range MAXSFD)

def processMySocket : Server F MySock := do
  let net ← get
  if net.sockfd = -1 then
    if sys.time - net.lasttry < 30 then return .failed
    else
      modify fun net => { net with lasttry := sys.tried }
      let sockfd ← openMySocket sys net.portno
      modify fun net => { net with sockfd }
      if sockfd = -1 then
        logabba L_MIN "Could not open port %i\n" [.int net.portno]
        return .OKAY
      else attend sys sockfd
  else attend sys net.sockfd

/-- The call of `processMySocket` in the main loop: what is recorded of a call starts anew. -/
def connections : Machine (Net F) Answers (Option MySock) where
  step net sys :=
    let net := { net with touched := [], transcript := ⟨[], [], [], []⟩ }
    if net.daemon.swContinue then
      let (ret, net) := (processMySocket sys).run net
      ({ net with daemon.swContinue := ret != .END }, some ret)
    else (net, none)

/-- The server before its first call, on a port. -/
def startNet (daemon : Daemon F) : Net F where
  portno := daemon.params.portno
  sfdConnect _ := 0
  sockfd := -1
  lasttry := 0
  daemon
  opened _ := false
  touched := []
  transcript := ⟨[], [], [], []⟩

end Connections

end TsBat3
