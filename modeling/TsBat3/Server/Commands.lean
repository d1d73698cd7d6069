import TsBat3.Server.Net

/-! # The commands of a client

A line of a client is taken apart into a command and the word behind it. The command buffer
is not initialised, so that a line without a word leaves there what was there before.
-/

namespace TsBat3

section Commands

variable {F : Type} (sys : Answers)

def cmdHelp (fd : Int) : Server F Unit := do
  let _ ← writeFd sys fd "Available commands:" []
  let _ ← writeFd sys fd " bat: get battery state" []
  let _ ← writeFd sys fd " state: get current state (complete array)" []
  let _ ← writeFd sys fd " current i: set new target current to i" []
  let _ ← writeFd sys fd " hours: get current halt-time" []
  let _ ← writeFd sys fd " loglevel i: set loglevel to i" []
  let _ ← writeFd sys fd " quit: close this connection" []
  let _ ← writeFd sys fd " exit: end the bat3 program" []
  logabba L_NOTICE "Wrote help msg to %i" [.int fd]

def cmdQuit (fd : Int) : Server F MySock := do
  let _ ← writeFd sys fd "Have a nice day." []
  close fd
  return .QUIT

def cmdEnd (fd : Int) : Server F MySock := do
  let _ ← writeFd sys fd "I'll stop working" []
  return .END

/-- `getAddress` returns -1, which nobody looks at. -/
def cmdRead (fd : Int) (rest : List Byte) : Server F MySock := do
  match scanInt false rest with
  | none =>
      let _ ← writeFd sys fd "Sorry, couldn't decode <%s> to a integer" [.str rest]
      return .OKAY
  | some address =>
      let _ ← writeFd sys fd "I'll read %d" [.int address]
      return .OKAY

def printOnoff (onoff : OnOff) : List Byte :=
  match onoff with
  | .ON => text "ON"
  | .OFF => text "OFF"

def cmdBat (fd : Int) : Server F MySock := do
  let state := (← get).daemon.state
  let val := if state.batI = 0x01FF then text "NONE" else printOnoff state.batRun
  let _ ← writeFd sys fd "BatRun: %s" [.str val]
  return .OKAY

/-- `print_bat3`, which writes to the descriptor whatever becomes of it. -/
def printBat3 (fd : Int) (mybat3 : Bat3) : Server F Unit :=
  if fd > 0 then
    modify fun net =>
      { net with
        transcript.written :=
          net.transcript.written ++ (sys.printBat3 mybat3).map fun line => (fd, line) }
  else pure ()

def cmdState (fd : Int) : Server F MySock := do
  let _ ← writeFd sys fd "checking state" []
  printBat3 sys fd (← get).daemon.state
  return .OKAY

/-- A command reaches the daemon. -/
def give (command : Command) : Server F Unit :=
  modify fun net => { net with daemon := runCommand net.daemon command }

/-- `cmdCurrent`, once it has logged what it decodes. -/
def changeCurrent (fd : Int) (rest : List Byte) : Server F MySock := do
  let current := (← get).daemon.params.current
  match scanInt true rest with
  | none =>
      let _ ← writeFd sys fd "Currently charging to %imA" [.int current]
      return .OKAY
  | some newcurrent =>
      logabba L_INFO "Changing current from %i to %i" [.int current, .int newcurrent]
      let _ ← writeFd sys fd "Changing current from %i to %i" [.int current, .int newcurrent]
      give (.current (some newcurrent))
      let _ ← writeFd sys fd "New current set to %i" [.int (← get).daemon.params.current]
      return .OKAY

def cmdCurrent (fd : Int) (rest : List Byte) : Server F MySock := do
  logabba L_INFO "Decoding <%s>" [.str rest]
  changeCurrent sys fd rest

def cmdHours (fd : Int) (rest : List Byte) : Server F MySock := do
  let myHour := (← get).daemon.params.hours
  match scanInt true rest with
  | none =>
      if myHour = 0 then
        let _ ← writeFd sys fd "Hours not set" []
        return .OKAY
      else
        let _ ← writeFd sys fd "Hours set to %s" [.str (sys.ctime myHour)]
        return .OKAY
  | some newhour =>
      give (.hours sys.now (some newhour))
      let myHour := (← get).daemon.params.hours
      let _ ← writeFd sys fd "Changing stoptime to %s" [.str (sys.ctime myHour)]
      return .OKAY

def cmdLoglevel (fd : Int) (rest : List Byte) : Server F MySock := do
  let loglevel := (← get).daemon.loglevel
  match scanInt true rest with
  | none =>
      let _ ← writeFd sys fd "Currently loglevel to %i" [.int loglevel]
      return .OKAY
  | some newloglevel =>
      logabba L_INFO "Changing loglevel from %i to %i" [.int loglevel, .int newloglevel]
      let _ ← writeFd sys fd "Changing loglevel from %i to %i" [.int loglevel, .int newloglevel]
      give (.loglevel (some newloglevel))
      let _ ← writeFd sys fd "New loglevel set to %i" [.int (← get).daemon.loglevel]
      return .OKAY

/-- `sscanf(buffer, "%s %s", cmd, buffer)`: its return value and the two buffers. -/
def scanLine (buffer cmd : List Byte) : Int × List Byte × List Byte :=
  match scanWord buffer with
  | none => (-1, cmd, buffer)
  | some (first, rest) =>
      match scanWord rest with
      | none => (1, first, buffer)
      | some (second, _) => (2, first, second)

/-- The handler that a command is dispatched to. -/
def handlerOf (cmd : List Byte) : Option Handler :=
  if cmd = text "help" ∨ cmd = text "q" then some .cmdHelp
  else if cmd = text "quit" ∨ cmd = text "q" then some .cmdQuit
  else if cmd = text "bat" ∨ cmd = text "b" then some .cmdBat
  else if cmd = text "exit" ∨ cmd = text "e" then some .cmdEnd
  else if cmd = text "read" ∨ cmd = text "r" then some .cmdRead
  else if cmd = text "state" ∨ cmd = text "s" then some .cmdState
  else if cmd.head? = (text "c").head? then some .cmdCurrent
  else if cmd.head? = (text "h").head? then some .cmdHours
  else if cmd.head? = (text "l").head? then some .cmdLoglevel
  else none

/-- What a handler makes of a command. Only some return values are passed on. -/
def handle (fd : Int) (rest : List Byte) : Handler → Server F MySock
  | .cmdHelp => do
      cmdHelp sys fd
      return .OKAY
  | .cmdQuit => cmdQuit sys fd
  | .cmdBat => do
      let _ ← cmdBat sys fd
      return .OKAY
  | .cmdEnd => cmdEnd sys fd
  | .cmdRead => cmdRead sys fd rest
  | .cmdState => cmdState sys fd
  | .cmdCurrent => cmdCurrent sys fd rest
  | .cmdHours => cmdHours sys fd rest
  | .cmdLoglevel => cmdLoglevel sys fd rest

/-- The chain of tests behind the decoding of a line. -/
def dispatch (fd : Int) (cmd rest : List Byte) : Server F MySock := do
  match handlerOf cmd with
  | some handler =>
      modify fun net =>
        { net with transcript.handled := net.transcript.handled ++ [handler] }
      handle sys fd rest handler
  | none =>
      let _ ← writeFd sys fd "I got your message but didn't understand it: <%s>" [.str cmd]
      let _ ← writeFd sys fd "You could try help" []
      return .OKAY

/-- The `switch` on what `sscanf` returns. -/
def complain (fd n : Int) (buffer : List Byte) : Server F Unit := do
  if n = 0 then
    let _ ← writeFd sys fd "No command decoded" []
    return ()
  else if n = 1 ∨ n = 2 then return ()
  else
    logabba L_MIN "Could not decode your message: %s" [.str buffer]
    let _ ← writeFd sys fd "Could not decode your message: [%s]" [.str buffer]
    return ()

/-- The client gets another prompt unless it has left. -/
def promptAgain (fd : Int) (ret : MySock) : Server F MySock := do
  if ret ≠ .END ∧ ret ≠ .QUIT then
    let _ ← writePrompt sys fd
    return ret
  else return ret

def readSocket (fd : Int) : Server F MySock := do
  match sys.read fd with
  | none =>
      logabba L_MIN "ERROR reading from socket" []
      return .failed
  | some bytes =>
      let (n, cmd, buffer) := scanLine (cString (bytes.take 255)) (cString (sys.cmd fd))
      complain sys fd n buffer
      let ret ← dispatch sys fd cmd (if n ≤ 1 then [] else buffer)
      promptAgain sys fd ret

end Commands

end TsBat3
