import TsBat3.Foundation.Effects
import TsBat3.Daemon.Round
import TsBat3.Server.Text

/-! # The sockets of the daemon

The table of the connected clients, the listening socket, and what opens, closes and
writes to them. The system's answers are a parameter of every function. Two things are
kept that the program does not have: the set of socket descriptors that it has opened and
not closed, and the indexes at which it accesses its table. An index outside the table
stands for memory of its own, so that a write there changes no entry.
-/

namespace TsBat3

def MAXSFD : Nat := 128

def PROMPT : String := "> "

def L_MIN : Int := 1

def L_NOTICE : Int := 5

def L_INFO : Int := 6

/-- `mysock_t`, and the -1 that is returned in its place -/
inductive MySock
  | OKAY
  | QUIT
  | END
  | failed
deriving DecidableEq, Repr

/-- What the system answers during one call of `processMySocket`. -/
structure Answers where
  /-- the clock when the last try is looked at -/
  time : Time
  /-- the clock when the try is noted down -/
  tried : Time
  /-- the clock that a client's `hours` command reads -/
  now : Time
  /-- the descriptor of a new socket -/
  socket : Option Nat
  bind : Bool
  listen : Bool
  /-- which descriptors are ready -/
  select : Option (Int → Bool)
  /-- the descriptor of an accepted connection -/
  accept : Option Nat
  /-- what the calls of `send` return, in order -/
  send : Nat → Int
  /-- what is read from a client -/
  read : Int → Option (List Byte)
  /-- what the command buffer holds before a client's line is taken apart -/
  cmd : Int → List Byte
  strerror : List Byte
  ctime : Time → List Byte
  /-- the lines of `print_bat3` -/
  printBat3 : Bat3 → List (List Byte)
  version : List Byte
  rev : List Byte

/-- The command handlers. -/
inductive Handler
  | cmdHelp
  | cmdQuit
  | cmdBat
  | cmdEnd
  | cmdRead
  | cmdState
  | cmdCurrent
  | cmdHours
  | cmdLoglevel
deriving DecidableEq, Repr

/-- What is put out during a call: what is sent and written to descriptors, what is logged,
and the handlers that are run. -/
structure Transcript where
  sent : List (Int × List Byte)
  written : List (Int × List Byte)
  logged : List (List Byte)
  handled : List Handler

/-- The variables of the server, the daemon behind it, and what is recorded of them. -/
structure Net (F : Type) where
  portno : Int
  sfdConnect : Int → Int
  sockfd : Int
  lasttry : Time
  daemon : Daemon F
  opened : Int → Bool
  touched : List Int
  transcript : Transcript

section Net

variable {F : Type} (sys : Answers)

/-- A step of the server. -/
abbrev Server (F α : Type) := StateM (Net F) α

def logabba (prio : Int) (mess : String) (args : List Arg) : Server F Unit :=
  modify fun net =>
    if prio ≤ net.daemon.loglevel then
      { net with
        transcript.logged := net.transcript.logged ++ [vsprintf (text mess) args] }
    else net

/-- `sfd_connect[fd]` -/
def connected (fd : Int) : Server F Int := do
  modify fun net => { net with touched := net.touched ++ [fd] }
  return (← get).sfdConnect fd

/-- `sfd_connect[fd] = value` -/
def connect (fd : Int) (value : Int) : Server F Unit :=
  modify fun net =>
    { net with
      touched := net.touched ++ [fd]
      sfdConnect := Function.update net.sfdConnect fd value }

def close (fd : Int) : Server F Unit :=
  modify fun net => { net with opened := Function.update net.opened fd false }

def closeFd (fd : Int) : Server F Unit := do
  if (← connected fd) > 0 then
    close fd
    connect fd 0

/-- `send(fd, msg, strlen(msg), MSG_DONTWAIT)` -/
def send (fd : Int) (msg : List Byte) : Server F Int := do
  let net ← get
  set { net with transcript.sent := net.transcript.sent ++ [(fd, msg)] }
  return sys.send net.transcript.sent.length

/-- What `writeFd` does about the return value of `send`. -/
def checkSent (fd : Int) (mymsg : List Byte) (cnt : Int) : Server F Int := do
  if cnt < 0 then
    logabba L_MIN "ERROR sending to socket: %s" [.str sys.strerror]
    closeFd fd
    return -1
  else if cnt ≠ mymsg.length then
    logabba L_MIN "Wrote a wrong number of bytes: %d != %d" [.int cnt, .int mymsg.length]
    return cnt
  else return cnt

/-- Everything but the prompt is a line. -/
def endLine (fd : Int) (msg : String) : Server F Unit := do
  if msg ≠ PROMPT then
    let _ ← send sys fd (text "\n")
    return ()
  else return ()

def writeFd (fd : Int) (msg : String) (args : List Arg) : Server F Int := do
  if fd = -1 then return -1
  else
    let mymsg := vsprintf (text msg) args
    let cnt ← send sys fd mymsg
    let cnt ← checkSent sys fd mymsg cnt
    endLine sys fd msg
    return cnt

def writePrompt (fd : Int) : Server F Int := writeFd sys fd PROMPT []

/-- `socket` -/
def openSocket : Server F Int :=
  match sys.socket with
  | none => pure (-1)
  | some fd => do
      modify fun net => { net with opened := Function.update net.opened fd true }
      return fd

/-- `shutdown` ends the connection of a socket and leaves its descriptor open. -/
def openMySocket (portno : Int) : Server F Int := do
  let sockfd ← openSocket sys
  if ! sys.bind then
    logabba L_MIN "Could not bind to port %d: %s" [.int portno, .str sys.strerror]
    return -1
  else if ! sys.listen then
    logabba L_MIN "Could not listen to port %d: %s" [.int portno, .str sys.strerror]
    return -1
  else return sockfd

/-- `accept` -/
def acceptConnection : Server F Int :=
  match sys.accept with
  | none => pure (-1)
  | some fd => do
      modify fun net => { net with opened := Function.update net.opened fd true }
      return fd

/-- The first half of `acceptSocket`. -/
def welcome (newsockfd : Int) : Server F Int := do
  if newsockfd < 0 then return newsockfd
  else
    logabba L_MIN "Accepted connection" []
    let cnt ← writeFd sys newsockfd "Welcome to bat3 (%s-%s) on fd %d"
      [.str sys.version, .str sys.rev, .int newsockfd]
    if cnt > 0 then
      logabba L_NOTICE "Wrote info message to fd %d" [.int newsockfd]
      return newsockfd
    else
      -- the argument of this format is missing
      logabba L_NOTICE "Failed writing info message to fd %d" []
      close newsockfd
      return -1

/-- The second half of `acceptSocket`. -/
def promptFirst (newsockfd : Int) : Server F Int := do
  if newsockfd ≠ -1 then
    let cnt ← writePrompt sys newsockfd
    if cnt = 0 then
      close newsockfd
      return -1
    else return newsockfd
  else return newsockfd

def acceptSocket : Server F Int := do
  let newsockfd ← acceptConnection sys
  let newsockfd ← welcome sys newsockfd
  promptFirst sys newsockfd

end Net

end TsBat3
