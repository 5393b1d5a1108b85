import DaemonKeeper.Rehearsal.Image
import DaemonKeeper.Rehearsal.Shell.Expansion
import DaemonKeeper.Rehearsal.Shell.Reader
import DaemonKeeper.Rehearsal.Tools
set_option autoImplicit false

/-!
# Rehearsal: carrying out shell scripts

A script is carried out command by command.  Everything has a bound on how far it goes, which no
script of a rehearsal comes near.
-/

namespace DaemonKeeper.Rehearsal.Shell

open Running

/-- The signals that have a name. -/
def signalNames : List (String × Nat) :=
  [("EXIT", 0), ("HUP", 1), ("INT", 2), ("QUIT", 3), ("ABRT", 6), ("KILL", 9), ("USR1", 10),
    ("SEGV", 11), ("USR2", 12), ("PIPE", 13), ("ALRM", 14), ("TERM", 15), ("CHLD", 17),
    ("CONT", 18), ("STOP", 19)]

/-- The number of a signal that is named with or without its usual front part, or numbered. -/
def signalNumber? (s : String) : Option Nat :=
  match s.toNat? with
  | some n => if n ≤ 64 then some n else none
  | none =>
    let cs := s.toUpper.toList
    let bare := if ['S', 'I', 'G'].isPrefixOf cs then cs.drop 3 else cs
    signalNames.lookup (String.ofList bare)

/-- Complains about the line that is carried out. -/
def protest (status : Nat) (message : String) : Running Nat := do
  let s ← get
  let _ ← complain (s.name ++ ": " ++ toString s.line ++ ": " ++ message)
  return status

/-- Notes the status of a command. -/
def conclude (status : Nat) : Running Nat := do
  modify fun s => { s with status }
  return status

/-- The status that comes of a script that was carried out apart. -/
def statusOf : Except Halt Nat → Nat
  | .ok status | .error (.exit status) | .error (.back status) => status
  | .error _ => 0

/-! ## Redirections -/

/-- Leads a descriptor somewhere. -/
def lead (descriptor : Nat) (sink : Sink) : Running Unit := modify fun s =>
  { s with sinks := (descriptor, sink) :: s.sinks.filter (·.1 != descriptor) }

/-- What is said of a file that cannot be written. -/
def creationFault (fault : IoFault) : String :=
  match fault with
  | .notFound | .notADirectory => "Directory nonexistent"
  | _ => fault.wording

/-- Redirects one descriptor, and tells whether that was possible. -/
def redirect (descriptor : Nat) (direction : Direction) (target : String) : Running Bool := do
  let s ← get
  match direction with
  | .input =>
    match (← files).read s.directory target with
    | .ok bytes => set { s with input := bytes }; return true
    | .error .isADirectory => set { s with input := [] }; return true
    | .error fault =>
      let what := if fault = .notFound then "No such file" else fault.wording
      let _ ← protest 2 ("cannot open " ++ target ++ ": " ++ what)
      return false
  | .duplicate =>
    if target = "-" then
      if descriptor = 0 then set { s with input := [] } else lead descriptor .nowhere
      return true
    else
      match target.toNat? with
      | some n => lead descriptor (← sink n); return true
      | none =>
        let _ ← protest 2 (target ++ ": bad fd number")
        return false
  | .output | .append =>
    let fs ← files
    match fs.writable s.directory target with
    | .ok (place, node) =>
      if node = some .sink then lead descriptor .nowhere
      else
        ask (.keep (fs.fill place (direction = .append) []))
        lead descriptor (.file place)
      return true
    | .error fault =>
      let _ ← protest 2 ("cannot create " ++ target ++ ": " ++ creationFault fault)
      return false

/-- Some redirection is of standard input. -/
def takesInput (rs : List Redirection) : Bool := rs.any fun
  | .mk 0 _ _ => true
  | _ => false

/-- Redirects descriptors in order, as long as that is possible. -/
def redirectAll (text : Word → Running String) : List Redirection → Running Bool
  | [] => return true
  | .mk descriptor direction target :: rest => do
    if ← redirect descriptor direction (← text target) then redirectAll text rest else return false

/-- Carries something out with descriptors redirected. -/
def redirected (text : Word → Running String) (rs : List Redirection) (x : Running Nat) :
    Running Nat := do
  if rs.isEmpty then x
  else
    let before ← get
    let restore : Running Unit := modify fun s =>
      { s with sinks := before.sinks, input := if takesInput rs then before.input else s.input }
    if ← redirectAll text rs then
      match ← attempt x with
      | .ok status => restore; return status
      | .error halt => restore; throw halt
    else
      restore
      return 2

/-! ## Builtins that only change the surroundings -/

/-- The text before a separator, and what follows the separators. -/
def frontField (separators : List Char) (cs : List Char) : List Char × List Char :=
  let field := cs.takeWhile (· ∉ separators)
  (field, (cs.drop field.length).dropWhile (· ∈ separators))

/-- Gives fields of a line to variables; the last one gets what is left. -/
def distribute (separators : List Char) : List String → List Char → Running Unit
  | [], _ => return ()
  | [n], cs =>
    assign n (String.ofList ((cs.reverse.dropWhile fun c => c ∈ separators).reverse))
  | n :: more, cs => do
    let (field, rest) := frontField separators cs
    assign n (String.ofList field)
    distribute separators more rest

/-- A line without the backslashes that protect its characters. -/
def unprotected : List Char → List Char
  | '\\' :: c :: rest => c :: unprotected rest
  | c :: rest => c :: unprotected rest
  | [] => []

/-- Reads a line into variables. -/
def readLine (arguments : List String) : Running Nat := do
  let raw := arguments.contains "-r"
  let names := arguments.filter (· != "-r")
  let s ← get
  let line := s.input.takeWhile (· != 10)
  let ended := line.length < s.input.length
  set { s with input := s.input.drop (line.length + 1) }
  let cs := Text.decodeLossy line
  let seps ← separators
  distribute seps names ((if raw then cs else unprotected cs).dropWhile (· ∈ seps))
  return if ended then 0 else 1

/-- Sets what is done on one signal. -/
def setTrap (action : Option String) (signal : String) : Running Nat := do
  match signalNumber? signal with
  | none => protest 1 ("trap: " ++ signal ++ ": bad trap")
  | some n =>
    let others := (← get).traps.filter (·.1 != n)
    match action with
    | none =>
      modify fun s => { s with traps := others }
      if n != 0 then ask (.dispose n .standard)
    | some text =>
      modify fun s => { s with traps := (n, text) :: others }
      if n != 0 then ask (.dispose n (if text.isEmpty then .ignored else .caught))
    return 0

/-- Sets what is done on signals. -/
def trap : List String → Running Nat
  | [] => return 0
  | "--" :: rest | rest =>
    match rest with
    | [] => return 0
    | [signal] => setTrap none signal
    | action :: signals =>
      if action = "-" || action.toNat?.isSome then
        Tools.forEach (setTrap none) (if action = "-" then signals else action :: signals)
      else Tools.forEach (setTrap (some action)) signals

/-- Sends a signal to everyone named. -/
def kill (arguments : List String) : Running Nat := do
  let (signal, targets) := match arguments with
    | "-s" :: s :: rest => (signalNumber? s, rest)
    | "--" :: rest => (some 15, rest)
    | first :: rest =>
      match first.toList with
      | '-' :: s => (signalNumber? (String.ofList s), rest)
      | _ => (some 15, first :: rest)
    | [] => (some 15, [])
  match signal with
  | none => protest 2 "kill: Illegal option"
  | some n => Tools.forEach (fun target => do
      match target.toInt? with
      | none => protest 1 ("kill: Illegal number: " ++ target)
      | some pid =>
        if ← ask (.signal pid n) then return 0
        else protest 1 "kill: No such process\n") targets

/-- Waits for children. -/
def wait (arguments : List String) : Running Nat := do
  let s ← get
  let pids := if arguments.isEmpty then s.jobs else arguments.filterMap String.toNat?
  let statuses ← pids.mapM fun pid => do
    match ← ask (.wait pid) with
    | some (.code n) => return n
    | some (.signal n) => return 128 + n
    | none => return 128 + 15
  return if arguments.isEmpty then 0 else statuses.getLast?.getD 127

/-- Goes to a directory. -/
def changeDirectory (arguments : List String) : Running Nat := do
  let s ← get
  let target := arguments.headD "/"
  match (← files).find s.directory target with
  | .ok (place, .directory) =>
    set { s with directory := place }
    return 0
  | _ => protest 2 ("cd: can't cd to " ++ target)

/-- Sets variables from words such as `name=value`. -/
def setVariables (arguments : List String) : Running Nat :=
  Tools.forEach (fun a => do
    match Reading.assignmentName a.toList with
    | some n =>
      assign (String.ofList n) (String.ofList (a.toList.drop (n.length + 1)))
      return 0
    | none => return 0) arguments

/-- Sets variables, and shows them to started programs. -/
def exportVariables (arguments : List String) : Running Nat := do
  let name (a : String) : String := String.ofList (a.toList.takeWhile (· != '='))
  modify fun s => { s with exported := arguments.map name ++ s.exported }
  setVariables arguments

/-- Sets variables for the rest of the present function. -/
def localVariables (arguments : List String) : Running Nat := do
  match (← get).saved with
  | none => abort "local: not in a function"
  | some saved =>
    let name (a : String) : String := String.ofList (a.toList.takeWhile (· != '='))
    let bindings := (← get).bindings
    let before := arguments.map fun a => (name a, bindings.lookup (name a))
    modify fun s => { s with saved := some (before ++ saved) }
    setVariables arguments

/-- Gives variables back what they were before. -/
def giveBack : List (String × Option String) → Running Unit
  | [] => return ()
  | (name, value) :: rest => do
    match value with
    | some v => assign name v
    | none => unset name
    giveBack rest

/-- Sets the options of the script, and its arguments. -/
def setArguments : List String → Running Nat
  | [] => return 0
  | "--" :: rest => do
    modify fun s => { s with arguments := rest }
    return 0
  | first :: rest => do
    match first.toList with
    | '-' :: letters =>
      if 'e' ∈ letters then modify fun s => { s with strict := true }
      setArguments rest
    | '+' :: letters =>
      if 'e' ∈ letters then modify fun s => { s with strict := false }
      setArguments rest
    | _ =>
      modify fun s => { s with arguments := first :: rest }
      return 0

/-- The number of an argument, or one. -/
def count (arguments : List String) : Nat := ((arguments.head?).bind String.toNat?).getD 1

/-- Halts loops, but not more than there are. -/
def haltLoops (halt : Nat → Halt) (arguments : List String) : Running Nat := do
  match (← get).loops with
  | 0 => return 0
  | loops => throw (halt (min (count arguments) loops))

/-- The builtins that only change the surroundings, by name. -/
def builtins : List (String × (List String → Running Nat)) :=
  [(":", fun _ => return 0), ("cd", changeDirectory), ("echo", Tools.echo true),
    ("export", exportVariables), ("readonly", setVariables), ("local", localVariables),
    ("kill", kill),
    ("read", readLine), ("set", setArguments), ("trap", trap), ("wait", wait),
    ("umask", fun _ => return 0),
    ("shift", fun a => do
      modify fun s => { s with arguments := s.arguments.drop (count a) }
      return 0),
    ("unset", fun a => do a.forM unset; return 0),
    ("break", haltLoops .leave), ("continue", haltLoops .again)]

/-- Builtins for which assignments in front of them stay. -/
def special : List String :=
  [":", "export", "readonly", "set", "trap", "unset", "shift", "break", "continue", "exit",
    "return", "eval", "."]

/-! ## Scripts -/

/-- Complains about a text that is no script. -/
def refuseScript (fault : Unexpected) : Running Nat := do
  let s ← get
  let _ ← complain
    (s.name ++ ": " ++ toString fault.line ++ ": Syntax error: " ++ fault.wording)
  return 2

/-- Carries something out with its status tested. -/
def whileTested (x : Running Nat) : Running Nat := do
  let before := (← get).tested
  modify fun s => { s with tested := true }
  let status ← x
  modify fun s => { s with tested := before }
  return status

/-- Carries something out inside one more loop. -/
def inLoop (x : Running Nat) : Running Nat := do
  modify fun s => { s with loops := s.loops + 1 }
  let outcome ← attempt x
  modify fun s => { s with loops := s.loops - 1 }
  match outcome with
  | .ok status => return status
  | .error halt => throw halt

/-- Notes the status of a command whose failure ends a strict script. -/
def weigh (status : Nat) : Running Nat := do
  let s ← get
  set { s with status }
  if s.strict && !s.tested && status != 0 then throw (.exit status) else return status

/-- The status that `exit` and `return` are given, or the last one. -/
def givenStatus (builtin : String) (arguments : List String) : Running Nat := do
  match arguments with
  | [] => return (← get).status
  | n :: _ =>
    if n.isEmpty || !n.toList.all Char.isDigit then abort (builtin ++ ": Illegal number: " ++ n)
    else return Nat.ofDigitChars 10 n.toList 0 % 256

mutual

/-- Carries out a script. -/
def carryOut (bound : Nat) (script : Script) : Running Nat := do
  match bound with
  | 0 => return 1
  | bound + 1 =>
    match script with
    | .nothing => return (← get).status
    | .sequence first second =>
      let _ ← carryOut bound first
      carryOut bound second
    | .both first second =>
      let status ← whileTested (carryOut bound first)
      if status = 0 then carryOut bound second else return status
    | .either first second =>
      let status ← whileTested (carryOut bound first)
      if status = 0 then return status else carryOut bound second
    | .negation script =>
      let status ← whileTested (carryOut bound script)
      conclude (if status = 0 then 1 else 0)
    | .subshell script => do weigh (statusOf (← isolated (carryOut bound script)))
    | .pipe first second =>
      let bytes ← captured bound first
      weigh (statusOf (← isolated do
        modify fun s => { s with input := bytes }
        carryOut bound second))
    | .background script =>
      let s ← get
      let pid ← ask (.fork script { s with input := [], traps := [], held := [] })
      modify fun s => { s with lastBackground := some pid, jobs := s.jobs ++ [pid] }
      conclude 0
    | .redirected script rs =>
      conclude (← redirected (textOf (capture bound)) rs (carryOut bound script))
    | .choice condition yes no =>
      let status ← whileTested (carryOut bound condition)
      if status = 0 then carryOut bound yes
      else
        match no with
        | .nothing => conclude 0
        | no => carryOut bound no
    | .loop until_ condition body => conclude (← inLoop (iterate bound until_ condition body 0))
    | .each name words body =>
      let values ← match words with
        | some ws => fieldsOf (capture bound) ws
        | none => do pure (← get).arguments
      conclude (← inLoop (forValues bound name values body 0))
    | .cases subject clauses =>
      let text ← textOf (capture bound) subject
      select bound text clauses
    | .define name body =>
      modify fun s => { s with functions := (name, body) :: s.functions.filter (·.1 != name) }
      conclude 0
    | .simple line assignments words rs =>
      modify fun s => { s with line, captureStatus := 0 }
      let fields ← fieldsOf (capture bound) words
      let text := textOf (capture bound)
      let status ← match fields with
        | [] => redirected text rs do
          assignAll bound assignments
          return (← get).captureStatus
        | "exec" :: argv => do
          assignAll bound assignments
          if ← redirectAll text rs then
            if argv.isEmpty then pure 0 else become bound argv
          else throw (.exit 2)
        | name :: arguments => redirected text rs do
          let before ← get
          assignAll bound assignments
          if name ∈ special then invoke bound name arguments
          else
            let names := assignments.map (·.1)
            modify fun s => { s with exported := names ++ s.exported }
            let status ← invoke bound name arguments
            modify fun s => { s with exported := before.exported }
            giveBack (names.map fun n => (n, before.bindings.lookup n))
            return status
      let _ ← conclude status
      heed bound
      weigh status

/-- Repeats a body as a condition says. -/
def iterate (bound : Nat) (until_ : Bool) (condition body : Script) (last : Nat) :
    Running Nat := do
  match bound with
  | 0 => return last
  | bound + 1 =>
    ask .yield
    heed bound
    let status ← whileTested (carryOut bound condition)
    if (status = 0) = until_ then return last
    match ← attempt (carryOut bound body) with
    | .ok status => iterate bound until_ condition body status
    | .error (.leave n) => if n ≤ 1 then return 0 else throw (.leave (n - 1))
    | .error (.again n) =>
      if n ≤ 1 then iterate bound until_ condition body 0 else throw (.again (n - 1))
    | .error halt => throw halt

/-- Carries out a body for every value of a variable. -/
def forValues (bound : Nat) (name : String) (values : List String) (body : Script) (last : Nat) :
    Running Nat := do
  match bound, values with
  | 0, _ | _, [] => return last
  | bound + 1, value :: rest =>
    ask .yield
    assign name value
    match ← attempt (carryOut bound body) with
    | .ok status => forValues bound name rest body status
    | .error (.leave n) => if n ≤ 1 then return 0 else throw (.leave (n - 1))
    | .error (.again n) =>
      if n ≤ 1 then forValues bound name rest body 0 else throw (.again (n - 1))
    | .error halt => throw halt

/-- Carries out the first clause that fits a text. -/
def select (bound : Nat) (text : String) (clauses : List (List Word × Script)) :
    Running Nat := do
  match bound, clauses with
  | 0, _ | _, [] => conclude 0
  | bound + 1, (patterns, body) :: rest =>
    if ← anyFits bound text patterns then carryOut bound body else select bound text rest

/-- Some pattern fits a text. -/
def anyFits (bound : Nat) (text : String) (patterns : List Word) : Running Bool := do
  match bound, patterns with
  | 0, _ | _, [] => return false
  | bound + 1, p :: rest =>
    if fits (← patternOf (capture bound) p) text.toList then return true
    else anyFits bound text rest

/-- Sets variables. -/
def assignAll (bound : Nat) (assignments : List (String × Word)) : Running Unit := do
  match bound, assignments with
  | 0, _ | _, [] => return ()
  | bound + 1, (name, value) :: rest =>
    assign name (← textOf (capture bound) value)
    assignAll bound rest

/-- Does what the traps say about signals that were caught. -/
def heed (bound : Nat) : Running Unit := do
  match bound with
  | 0 => return ()
  | bound + 1 =>
    match ← ask .caught with
    | none => return ()
    | some n =>
      let s ← get
      match s.traps.lookup n with
      | some action =>
        let _ ← perform bound action
        modify fun after => { after with status := s.status }
      | none => return ()
      heed bound

/-- Carries out a text as a script. -/
def perform (bound : Nat) (text : String) : Running Nat := do
  match bound with
  | 0 => return 1
  | bound + 1 =>
    match readScript (← get).line text.toList with
    | .ok script => carryOut bound script
    | .error fault => refuseScript fault

/-- The bytes that a script prints. -/
def captured (bound : Nat) (script : Script) : Running (List UInt8) := do
  match bound with
  | 0 => return []
  | bound + 1 =>
    let outcome ← isolated do
      lead 1 (.held (← get).held.length)
      modify fun s => { s with held := [] :: s.held, tested := false }
      carryOut bound script
    let s ← get
    set { s with held := s.held.drop 1, captureStatus := statusOf outcome }
    return (s.held.headD []).reverse.flatten

/-- The text that a script prints, without the line ends behind it. -/
def capture (bound : Nat) (script : Script) : Running String := do
  match bound with
  | 0 => return ""
  | bound + 1 =>
    let bytes := ((← captured bound script).reverse.dropWhile (· = 10)).reverse
    return String.ofList (Text.decodeLossy (bytes.filter (· != 0)))

/-- Starts a command by its name: a function, a builtin or a program. -/
def invoke (bound : Nat) (name : String) (arguments : List String) : Running Nat := do
  match bound with
  | 0 => return 1
  | bound + 1 =>
    let s ← get
    match s.functions.lookup name with
    | some body =>
      set { s with arguments, loops := 0, saved := some [] }
      let outcome ← attempt (carryOut bound body)
      giveBack ((← get).saved.getD [])
      modify fun after =>
        { after with arguments := s.arguments, loops := s.loops, saved := s.saved }
      match outcome with
      | .ok status | .error (.back status) => return status
      | .error halt => throw halt
    | none =>
      match name with
      | "exit" => throw (.exit (← givenStatus name arguments))
      | "return" => throw (.back (← givenStatus name arguments))
      | "eval" => perform bound (String.intercalate " " arguments)
      | "command" =>
        match arguments with
        | "-v" :: n :: _ =>
          if (builtins.lookup n).isSome then print (n ++ "\n"); return 0
          else
            match Image.resolve (← files) s.directory n with
            | .ok path => print (path ++ "\n"); return 0
            | .error _ => return 127
        | n :: rest => invoke bound n rest
        | [] => return 0
      | "." =>
        match (← files).read s.directory (arguments.headD "") with
        | .ok bytes => perform bound (String.ofList (Text.decodeLossy bytes))
        | .error _ => abort (".: cannot open " ++ arguments.headD "" ++ ": No such file")
      | _ =>
        match builtins.lookup name with
        | some f => f arguments
        | none =>
          let fs ← files
          match Image.ofCommand fs s.directory (name :: arguments) with
          | .ok image => do return statusOf (← isolated (runImage bound image))
          | .error .execFormat => do
            return statusOf (← isolated (runShell bound name (name :: arguments)))
          | .error fault =>
            if fault = .notFound then protest 127 (name ++ ": not found")
            else protest 126 (name ++ ": " ++ fault.wording)

/-- Goes on as another program. -/
def become (bound : Nat) (argv : List String) : Running Nat := do
  match bound with
  | 0 => return 1
  | bound + 1 =>
    let s ← get
    let fs ← files
    match Image.ofCommand fs s.directory argv with
    | .error fault =>
      let _ ← protest 127 ("exec: " ++ argv.headD "" ++ ": "
        ++ (if fault = .notFound then "not found" else fault.wording))
      throw (.exit (if fault = .notFound then 127 else 126))
    | .ok image =>
      s.traps.forM fun t => if t.1 != 0 && !t.2.isEmpty then ask (.dispose t.1 .standard) else pure ()
      if !s.nested then ask (.rename image.command)
      set { s with traps := [] }
      throw (.exit (statusOf (← attempt (runImage bound image))))

/-- Runs a program. -/
def runImage (bound : Nat) (image : Image) : Running Nat := do
  match bound with
  | 0 => return 1
  | bound + 1 =>
    let arguments := image.argv.drop 1
    match image.tool with
    | "sh" | "dash" => runShell bound (image.argv.headD "sh") arguments
    | "env" =>
      let isSetting (a : String) := a.toList.contains '='
      let settings := arguments.takeWhile isSetting
      let _ ← setVariables settings
      match arguments.drop settings.length with
      | [] => return 0
      | argv => become bound argv
    | "[" =>
      if arguments.getLast? = some "]" then Tools.test "[" arguments.dropLast
      else protest 2 "[: missing ]"
    | tool =>
      match Tools.all.lookup tool with
      | some f => f arguments
      | none => return 127

/-- Runs a shell with its arguments: a text, a file, or what comes in. -/
def runShell (bound : Nat) (name : String) (arguments : List String) : Running Nat := do
  match bound with
  | 0 => return 1
  | bound + 1 =>
    let here := (← get).directory
    modify fun s =>
      { s with
        name, traps := [], functions := [], status := 0, jobs := [], loops := 0, saved := none
        tested := false
        strict := arguments.head? = some "-e" || arguments.head? = some "-ec"
        bindings := s.bindings.filter fun v => v.1 ∈ s.exported }
    let script ← match (if arguments.head? = some "-e" then arguments.drop 1 else arguments) with
      | "-c" :: text :: rest | "-ec" :: text :: rest => do
        modify fun s => { s with name := rest.headD name, arguments := rest.drop 1 }
        pure (some text)
      | file :: rest => do
        modify fun s => { s with name := file, arguments := rest }
        match (← files).read here file with
        | .ok bytes => pure (some (String.ofList (Text.decodeLossy bytes)))
        | .error _ =>
          let _ ← complain (name ++ ": 0: cannot open " ++ file ++ ": No such file")
          pure none
      | [] => do
        modify fun s => { s with arguments := [] }
        pure (some (String.ofList (Text.decodeLossy (← takeInput))))
    match script with
    | none => return 2
    | some text =>
      modify fun s => { s with line := 1 }
      let status := statusOf (← attempt (perform bound text))
      let _ ← conclude status
      match (← get).traps.lookup 0 with
      | none => return status
      | some action =>
        modify fun s => { s with traps := s.traps.filter (·.1 != 0) }
        match ← attempt (perform bound action) with
        | .error (.exit n) => return n
        | _ => return status

end

end DaemonKeeper.Rehearsal.Shell
