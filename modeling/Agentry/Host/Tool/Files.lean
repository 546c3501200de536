import Agentry.Host.Numeral
import Agentry.Host.Pattern
import Agentry.Host.Tool.Work
/-!
# Tools for files

Tools that make, move, copy, remove and list what stands in the tree.
-/
namespace Agentry.Host.Tool

/-- Whether a location lies in a directory at any depth, or is the directory. -/
def isBelow (directory loc : Location) : Bool := directory.isPrefixOf loc

def removeAll (tree : FileTree) (loc : Location) : FileTree :=
  ⟨tree.nodes.filter fun (l, _) => !isBelow loc l⟩

/-- What stands at a path whose last step is taken as it is, and where. -/
def entryAt (tree : FileTree) (home : Location) (path : String) :
    Except IoError (Location × Node) := do
  let arrival := if path.toList.getLast? = some '/' then Arrival.existing else Arrival.entry
  let loc ← tree.locatePath home arrival (Octets.toPath path)
  match tree.get? loc with
  | some node => return (loc, node)
  | none => throw .notFound

/-- What stands at a path behind all links, and where. -/
def nodeAt (tree : FileTree) (home : Location) (path : String) :
    Except IoError (Location × Node) := do
  let loc ← tree.locatePath home .existing (Octets.toPath path)
  match tree.get? loc with
  | some node => return (loc, node)
  | none => throw .notFound

/-- The last step of a path, trailing slashes apart. -/
def lastStep (path : String) : String :=
  String.ofList (((Path.pieces path.toList).getLast?).getD [])

/-- A path with one more step. -/
def within (folder step : String) : String :=
  if folder.toList.getLast? = some '/' then folder ++ step else folder ++ "/" ++ step

def isDirectoryPath (tree : FileTree) (home : Location) (path : String) : Bool :=
  (tree.directoryAt home (Octets.toPath path)).toBool

def rmOptions : Options where
  plain := ['d', 'f', 'i', 'I', 'r', 'R', 'v']
  taking := []
  long := [("dir", 'd'), ("force", 'f'), ("recursive", 'r'), ("verbose", 'v'), ("interactive", 'i')]
  trouble := 1
  strict := false

/-- What is said about what was removed with a location, the deepest first. -/
def removedNames (tree : FileTree) (loc : Location) (path : String) : List String :=
  let below := (tree.nodes.filter fun (l, _) => isBelow loc l && l ≠ loc).map fun (l, node) =>
    (within path (Octets.ofSpelling ("/".intercalate (l.drop loc.length))), node)
  let ordered := below.mergeSort fun a b => decide (b.1 ≤ a.1)
  ordered.map fun (name, node) => match node with
    | .directory _ => "removed directory " ++ quoted name
    | _ => "removed " ++ quoted name

/-- Asks whether a file is to be removed. -/
def confirms (node : Node) (name : String) : Work Bool := do
  let kind := match node with
    | .file bytes _ => if bytes.isEmpty then "regular empty file" else "regular file"
    | .link _ => "symbolic link"
    | .directory _ => "directory"
  let job ← Work.job
  Work.onMachine (modify fun machine => machine.write job.descriptors 2
    (job.name ++ ": remove " ++ kind ++ " " ++ quoted name ++ "? "))
  let answer ← Work.input
  return answer.toList.head?.any fun c => c = 'y' || c = 'Y'

def rm : Tool := ofWork do
  let given ← rmOptions.read
  let force := given.has 'f'
  let deep := given.has 'r' || given.has 'R'
  if given.operands.isEmpty && !force then Work.misuse 1 "missing operand"
  given.operands.forM fun name => do
    let home := (← Work.job).directory
    let tree := (← Work.machine).tree
    let refuse (why : String) : Work Unit :=
      Work.refuse 1 ("cannot remove " ++ quoted name ++ ": " ++ why)
    let keep (tree : FileTree) : Work Unit :=
      Work.onMachine (modify fun machine => { machine with tree })
    match entryAt tree home name with
    | .error cause =>
      unless force && (cause = .notFound || cause = .notADirectory) do refuse (reasonText cause)
    | .ok (loc, .directory _) =>
      let step := lastStep name
      if deep && (step = "." || step = "..") then
        Work.refuse 1 ("refusing to remove '.' or '..' directory: skipping " ++ quoted name)
      else if deep then
        if given.has 'v' then (removedNames tree loc name).forM Work.putLine
        keep (removeAll tree loc)
        if given.has 'v' then Work.putLine ("removed directory " ++ quoted name)
      else if given.has 'd' then
        if (tree.names loc).isEmpty then keep (tree.erase loc) else refuse "Directory not empty"
      else refuse "Is a directory"
    | .ok (loc, node) =>
      let agreed ← if given.has 'i' then confirms node name else pure true
      if agreed then
        keep (tree.erase loc)
        if given.has 'v' then Work.putLine ("removed " ++ quoted name)

/-- Makes a directory, and with `parents` those on the way to it that are missing. -/
def makeDirectory (parents : Bool) (mode : Nat) (tree : FileTree) (home : Location)
    (path : String) : Except (String × IoError) FileTree := do
  let text := (Octets.toPath path).spelling
  if text.isEmpty then throw (path, .notFound)
  let start := if Path.isAbsolute text then [] else home
  let steps := (Path.movingSteps text.toList).map String.ofList
  let make (last : Bool) (tree : FileTree) (steps : List String) : Except IoError FileTree := do
    let loc ← tree.walk .entry FileTree.linkLimit start steps
    match tree.get? loc with
    | some _ => throw .alreadyExists
    | none => return tree.put loc (.directory (if last then mode else directoryMode))
  if parents then
    (List.range steps.length).foldlM (fun tree n =>
      let upTo := steps.take (n + 1)
      let front := if Path.isAbsolute text then "/" else ""
      let shown := front ++ Octets.ofSpelling ("/".intercalate upTo)
      match make (n + 1 = steps.length) tree upTo with
      | .ok tree => .ok tree
      | .error .alreadyExists =>
        match tree.walk .existing FileTree.linkLimit start upTo with
        | .ok loc =>
          if tree.isDirectoryAt loc then .ok tree
          else if n + 1 = steps.length then .error (path, .alreadyExists)
          else .error (shown, .notADirectory)
        | .error cause => .error (shown, cause)
      | .error cause => .error (shown, cause)) tree
  else (make true tree steps).mapError (path, ·)

/-- The bits of a mode that is given in octal or as changes of another one. -/
def modeOf (before : Nat) (mask : Nat) (isDirectory : Bool) (text : String) : Option Nat :=
  let cs := text.toList
  if cs.isEmpty then none
  else if cs.all isOctal then
    let n := digitsIn 8 cs
    if n ≤ 0o7777 then some n else none
  else
    (Text.splitOn ',' cs).foldlM (fun mode part => change mode part) before
where
  /-- One change: classes, and then signs with rights behind them. -/
  change (mode : Nat) (part : List Char) : Option Nat :=
    let who := part.takeWhile fun c => "ugoa".toList.contains c
    let actions := part.drop who.length
    let classes := (if who.contains 'u' || who.contains 'a' then [64] else []) ++
      (if who.contains 'g' || who.contains 'a' then [8] else []) ++
      if who.contains 'o' || who.contains 'a' then [1] else []
    let everyone := who.isEmpty
    let classes := if everyone then [64, 8, 1] else classes
    if actions.isEmpty then none else act everyone classes actions.length mode actions
  act (everyone : Bool) (classes : List Nat) : Nat → Nat → List Char → Option Nat
    | 0, mode, _ => some mode
    | _, mode, [] => some mode
    | fuel + 1, mode, sign :: rest =>
      let letters := rest.takeWhile fun c => "rwxXstugo".toList.contains c
      let after := rest.drop letters.length
      let copied : Option Nat :=
        if letters.contains 'u' then some (mode / 64 % 8)
        else if letters.contains 'g' then some (mode / 8 % 8)
        else if letters.contains 'o' then some (mode % 8)
        else none
      let executes := letters.contains 'x' ||
        (letters.contains 'X' && (isDirectory || mode &&& 0o111 != 0))
      let rights := copied.getD ((if letters.contains 'r' then 4 else 0) +
        (if letters.contains 'w' then 2 else 0) + if executes then 1 else 0)
      let special := (if letters.contains 's' && classes.contains 64 then 0o4000 else 0) +
        (if letters.contains 's' && classes.contains 8 then 0o2000 else 0) +
        if letters.contains 't' then 0o1000 else 0
      let bits := ((classes.map (rights * ·)).foldl (· ||| ·) 0) ||| special
      let bits := if everyone then bits - (bits &&& mask) else bits
      let whole := (classes.map (7 * ·)).foldl (· ||| ·) 0
      if sign = '+' then act everyone classes fuel (mode ||| bits) after
      else if sign = '-' then act everyone classes fuel (mode - (mode &&& bits)) after
      else if sign = '=' then
        act everyone classes fuel (mode - (mode &&& whole) ||| bits) after
      else none

def mkdir : Tool := ofWork do
  let given ← Options.read
    ⟨['p', 'v'], ['m'], [("parents", 'p'), ("verbose", 'v'), ("mode", 'm')], 1, false⟩
  let job ← Work.job
  if given.operands.isEmpty then Work.misuse 1 "missing operand"
  let usual := 0o777 - (0o777 &&& job.mask)
  let mode ← match given.argument? 'm' with
    | none => pure usual
    | some text =>
      match modeOf usual job.mask true text with
      | some mode => pure mode
      | none => Work.die 1 ("invalid mode " ++ quoted text)
  given.operands.forM fun name => do
    let before := (← Work.machine).tree
    match makeDirectory (given.has 'p') mode before job.directory name with
    | .ok tree => Work.onMachine (modify fun machine => { machine with tree })
    | .error (path, cause) =>
      Work.refuse 1 ("cannot create directory " ++ quoted path ++ ": " ++ reasonText cause)
    if given.has 'v' && (← Work.machine).tree.nodes.length > before.nodes.length then
      Work.putLine (job.name ++ ": created directory " ++ quoted name)

/-- Removes a directory that is empty. -/
def removeDirectory (tree : FileTree) (home : Location) (path : String) :
    Except IoError FileTree := do
  match ← entryAt tree home path with
  | (loc, .directory _) =>
    if (tree.names loc).isEmpty then return tree.erase loc else throw .directoryNotEmpty
  | _ => throw .notADirectory

def rmdir : Tool := ofWork do
  let given ← Options.read
    ⟨['p', 'v'], [], [("parents", 'p'), ("verbose", 'v')], 1, false⟩
  if given.operands.isEmpty then Work.misuse 1 "missing operand"
  given.operands.forM fun name => do
    let steps := Path.pieces name.toList
    let front := if Path.isAbsolute name then "/" else ""
    let paths := if given.has 'p' then
        (List.range steps.length).map fun n =>
          front ++ String.ofList (['/'].intercalate (steps.take (steps.length - n)))
      else [name]
    paths.forM fun path => do
      let job ← Work.job
      if given.has 'v' then Work.putLine (job.name ++ ": removing directory, " ++ quoted path)
      Work.onTree 1 (fun cause => "failed to remove " ++ quoted path ++ ": " ++ reasonText cause)
        fun tree home => removeDirectory tree home path

/-- Makes files that are not there. -/
def touch : Tool := ofWork do
  let given ← Options.read
    ⟨['a', 'c', 'f', 'h', 'm'], ['d', 'r', 't'],
      [("no-create", 'c'), ("date", 'd'), ("reference", 'r')], 1, false⟩
  let job ← Work.job
  if given.operands.isEmpty then Work.misuse 1 "missing file operand"
  given.operands.forM fun name =>
    Work.onTree 1 (fun cause => "cannot touch " ++ quoted name ++ ": " ++ reasonText cause)
      fun tree home => do
        let loc ← tree.locatePath home .place (Octets.toPath name)
        match tree.get? loc with
        | some _ => return tree
        | none =>
          if given.has 'c' then return tree
          else return tree.put loc (.file .empty (0o666 - (0o666 &&& job.mask)))

/-- The nodes of a directory put under another location. -/
def moved (tree : FileTree) (source target : Location) : List (Location × Node) :=
  (tree.nodes.filter fun (loc, _) => isBelow source loc).map fun (loc, node) =>
    (target ++ loc.drop source.length, node)

def putAll (tree : FileTree) (nodes : List (Location × Node)) : FileTree :=
  nodes.foldl (fun tree (loc, node) => tree.put loc node) tree

/-- The sources and the target of a call, and whether the target is a directory that they go into.
-/
def targetOf (given : Given) : Work (List String × String × Bool) := do
  let home := (← Work.job).directory
  let tree := (← Work.machine).tree
  let place (target : String) : Bool := !given.has 'T' && isDirectoryPath tree home target
  match given.argument? 't', given.operands with
  | some target, operands =>
    if operands.isEmpty then Work.misuse 1 "missing file operand"
    if place target then return (operands, target, true)
    else Work.die 1 ("target directory " ++ quoted target ++ ": No such file or directory")
  | none, [] => Work.misuse 1 "missing file operand"
  | none, [source] =>
    if (← Work.job).name = "ln" then return ([source], ".", true)
    else Work.misuse 1 ("missing destination file operand after " ++ quoted source)
  | none, operands =>
    let sources := operands.dropLast
    let target := operands.getLast?.getD ""
    if sources.length > 1 && !place target then
      match nodeAt tree home target with
      | .ok _ => Work.die 1 ("target " ++ quoted target ++ ": Not a directory")
      | .error cause => Work.die 1 ("target " ++ quoted target ++ ": " ++ reasonText cause)
    else return (sources, target, place target)

def cpOptions : Options where
  plain := ['a', 'd', 'f', 'i', 'n', 'p', 'P', 'r', 'R', 'T', 'v', 'L', 'H', 'u', 'x']
  taking := ['t']
  long := [("archive", 'a'), ("force", 'f'), ("no-clobber", 'n'), ("recursive", 'r'),
    ("verbose", 'v'), ("target-directory", 't'), ("no-target-directory", 'T')]
  trouble := 1
  strict := false

/-- Copies a file or a directory to a path. -/
def copyTo (given : Given) (source target : String) : Work Unit := do
  let job ← Work.job
  let home := job.directory
  let tree := (← Work.machine).tree
  let deep := given.has 'r' || given.has 'R' || given.has 'a'
  let done (tree : FileTree) : Work Unit := do
    Work.onMachine (modify fun machine => { machine with tree })
    if given.has 'v' then Work.putLine (quoted source ++ " -> " ++ quoted target)
  match nodeAt tree home source with
  | .error cause => Work.refuse 1 ("cannot stat " ++ quoted source ++ ": " ++ reasonText cause)
  | .ok (origin, .directory mode) =>
    if !deep then Work.refuse 1 ("-r not specified; omitting directory " ++ quoted source)
    else
      match tree.locatePath home .entry (Octets.toPath target) with
      | .error cause =>
        Work.refuse 1 ("cannot create directory " ++ quoted target ++ ": " ++ reasonText cause)
      | .ok into =>
        if isBelow origin into then
          Work.refuse 1 ("cannot copy a directory, " ++ quoted source ++ ", into itself, " ++
            quoted target)
        else
          match tree.get? into with
          | some (.file _ _) =>
            Work.refuse 1 ("cannot overwrite non-directory " ++ quoted target ++
              " with directory " ++ quoted source)
          | _ =>
            let nodes := (moved tree origin into).filter fun (loc, _) => loc ≠ into
            let tree := if (tree.get? into).isSome then tree else tree.put into (.directory mode)
            done (putAll tree nodes)
  | .ok (origin, .link _) => Work.refuse 1 ("cannot stat " ++ quoted source ++ ": " ++
      reasonText (if origin.isEmpty then .notFound else .tooManyLinks))
  | .ok (origin, .file bytes mode) =>
    let refuse (cause : IoError) : Work Unit :=
      Work.refuse 1 ("cannot create regular file " ++ quoted target ++ ": " ++ reasonText cause)
    if !Machine.isReadable mode then
      Work.refuse 1 ("cannot open " ++ quoted source ++ " for reading: Permission denied")
    else if target.toList.getLast? = some '/' then refuse .notADirectory
    else
      match (← Work.machine).placeFor home (Octets.toPath target) with
      | .error .permissionDenied =>
        match tree.locatePath home .place (Octets.toPath target) with
        | .ok loc =>
          if given.has 'f' then done (tree.put loc (.file bytes (mode - (mode &&& job.mask))))
          else refuse .permissionDenied
        | .error cause => refuse cause
      | .error cause => refuse cause
      | .ok (loc, old) =>
        if loc = origin then
          Work.refuse 1 (quoted source ++ " and " ++ quoted target ++ " are the same file")
        else if given.has 'n' && old.isSome then return
        else
          let mode := if given.has 'p' || given.has 'a' then mode
            else (old.map (·.2)).getD (mode - (mode &&& job.mask))
          done (tree.put loc (.file bytes mode))

def cp : Tool := ofWork do
  let given ← cpOptions.read
  let (sources, target, inside) ← targetOf given
  if given.has 'n' then
    Work.complain ("warning: behavior of -n is non-portable and may change in future; " ++
      "use --update=none instead")
  sources.forM fun source =>
    copyTo given source (if inside then within target (lastStep source) else target)

def mvOptions : Options where
  plain := ['f', 'i', 'n', 'T', 'u', 'v']
  taking := ['t']
  long := [("force", 'f'), ("no-clobber", 'n'), ("verbose", 'v'), ("target-directory", 't'),
    ("no-target-directory", 'T')]
  trouble := 1
  strict := false

/-- Moves what stands at a path to another path. -/
def moveTo (given : Given) (source target : String) : Work Unit := do
  let home := (← Work.job).directory
  let tree := (← Work.machine).tree
  let refuse (cause : IoError) : Work Unit :=
    Work.refuse 1 ("cannot move " ++ quoted source ++ " to " ++ quoted target ++ ": " ++
      reasonText cause)
  match entryAt tree home source with
  | .error cause => Work.refuse 1 ("cannot stat " ++ quoted source ++ ": " ++ reasonText cause)
  | .ok (origin, node) =>
    match tree.locatePath home .entry (Octets.toPath target) with
    | .error cause => refuse cause
    | .ok into =>
      let isDirectory := match node with
        | .directory _ => true
        | _ => false
      if into = origin then
        Work.refuse 1 (quoted source ++ " and " ++ quoted target ++ " are the same file")
      else if isDirectory && isBelow origin into then
        Work.refuse 1 ("cannot move " ++ quoted source ++ " to a subdirectory of itself, " ++
          quoted target)
      else
        let fault : Option String := match tree.get? into with
          | some (.directory _) =>
            if !isDirectory then
              some ("cannot overwrite directory " ++ quoted target ++ " with non-directory")
            else if (tree.names into).isEmpty then none
            else some ("cannot overwrite " ++ quoted target ++ ": Directory not empty")
          | some _ =>
            if isDirectory then
              some ("cannot overwrite non-directory " ++ quoted target ++ " with directory " ++
                quoted source)
            else none
          | none => none
        match fault with
        | some text => Work.refuse 1 text
        | none =>
          if given.has 'n' && (tree.get? into).isSome then return
          else if !isDirectory && target.toList.getLast? = some '/' then refuse .notADirectory
          else
            let nodes := moved tree origin into
            let tree := putAll (removeAll (removeAll tree origin) into) nodes
            Work.onMachine (modify fun machine => { machine with tree })
            if given.has 'v' then
              Work.putLine ("renamed " ++ quoted source ++ " -> " ++ quoted target)

def mv : Tool := ofWork do
  let given ← mvOptions.read
  let (sources, target, inside) ← targetOf given
  sources.forM fun source =>
    moveTo given source (if inside then within target (lastStep source) else target)

def lnOptions : Options where
  plain := ['f', 'n', 's', 'T', 'v', 'i']
  taking := ['t']
  long := [("force", 'f'), ("symbolic", 's'), ("verbose", 'v'), ("no-dereference", 'n'),
    ("target-directory", 't'), ("no-target-directory", 'T')]
  trouble := 1
  strict := false

/-- Makes a link to what a path names, or a second file like it. -/
def linkTo (given : Given) (source target : String) : Work Unit := do
  let home := (← Work.job).directory
  let tree := (← Work.machine).tree
  let kind := if given.has 's' then "symbolic" else "hard"
  let refuse (cause : IoError) : Work Unit :=
    Work.refuse 1 ("failed to create " ++ kind ++ " link " ++ quoted target ++
      (if given.has 's' || cause = .alreadyExists then "" else " => " ++ quoted source) ++ ": " ++
      reasonText cause)
  let put (node : Node) : Work Unit :=
    match tree.locatePath home .entry (Octets.toPath target) with
    | .error cause => refuse cause
    | .ok loc =>
      match tree.get? loc with
      | some (.directory _) => refuse .alreadyExists
      | some _ =>
        if given.has 'f' then
          Work.onMachine (modify fun machine => { machine with tree := tree.put loc node })
        else refuse .alreadyExists
      | none => Work.onMachine (modify fun machine => { machine with tree := tree.put loc node })
  if given.has 's' then put (.link (Octets.toPath source).spelling)
  else
    match entryAt tree home source with
    | .error cause =>
      Work.refuse 1 ("failed to access " ++ quoted source ++ ": " ++ reasonText cause)
    | .ok (_, .directory _) =>
      Work.refuse 1 (named source ++ ": hard link not allowed for directory")
    | .ok (_, node) => put node

def ln : Tool := ofWork do
  let given ← lnOptions.read
  let (sources, target, inside) ← targetOf given
  sources.forM fun source =>
    linkTo given source (if inside then within target (lastStep source) else target)

/-- Prints where links lead. -/
def readlink : Tool := ofWork do
  let given ← Options.read
    ⟨['f', 'e', 'm', 'n', 'q', 's', 'v', 'z'], [],
      [("canonicalize", 'f'), ("no-newline", 'n'), ("verbose", 'v')], 1, false⟩
  if given.operands.isEmpty then Work.misuse 1 "missing operand"
  let home := (← Work.job).directory
  let tree := (← Work.machine).tree
  given.operands.forM fun name => do
    let answer : Option String := if given.has 'f' || given.has 'e' then
        let aim := if given.has 'e' then .existing else .place
        match tree.locatePath home aim (Octets.toPath name) with
        | .ok loc => some (Octets.ofPath (.ofLocation loc))
        | .error _ => none
      else
        match entryAt tree home name with
        | .ok (_, .link target) => some (Octets.ofSpelling target)
        | _ => none
    match answer with
    | some text => Work.put (text ++ if given.has 'n' then "" else "\n")
    | none => Work.fail 1

/-- Prints paths without links, whose last step may be free. -/
def realpath : Tool := ofWork do
  let given ← Options.read
    ⟨['e', 'm', 's', 'P', 'L', 'z', 'q'], [],
      [("canonicalize-existing", 'e'), ("no-symlinks", 's')], 1, false⟩
  if given.operands.isEmpty then Work.misuse 1 "missing operand"
  let home := (← Work.job).directory
  let tree := (← Work.machine).tree
  given.operands.forM fun name => do
    match tree.locatePath home (if given.has 'e' then .existing else .place) (Octets.toPath name) with
    | .ok loc => Work.putLine (Octets.ofPath (.ofLocation loc))
    | .error cause => Work.refuse 1 (named name ++ ": " ++ reasonText cause)

/-- Gives a node a mode. -/
def withMode (mode : Nat) : Node → Node
  | .file bytes _ => .file bytes mode
  | .directory _ => .directory mode
  | .link target => .link target

def nodeMode : Node → Nat
  | .file _ mode => mode
  | .directory mode => mode
  | .link _ => 0o777

def chmod : Tool := ofWork do
  let job ← Work.job
  let isMode (argument : String) : Bool :=
    match argument.toList with
    | '-' :: c :: _ => "rwxXstugo".toList.contains c
    | _ => false
  let options := job.arguments.filter fun argument => !isMode argument
  let given ← Options.readAll
    ⟨['R', 'v', 'f', 'c'], [], [("recursive", 'R'), ("verbose", 'v'), ("silent", 'f')], 1, false⟩
    (options.length + 1) options
  let operands := (job.arguments.find? isMode).toList ++ given.operands
  match operands with
  | [] => Work.misuse 1 "missing operand"
  | [mode] => Work.misuse 1 ("missing operand after " ++ quoted mode)
  | change :: names =>
    if (modeOf 0 0 false change).isNone then
      Work.misuse 1 ("invalid mode: " ++ quoted change)
    names.forM fun name =>
      Work.onTree 1 (fun cause => "cannot access " ++ quoted name ++ ": " ++ reasonText cause)
        fun tree home => do
          let (loc, _) ← nodeAt tree home name
          let changed (l : Location) : Bool := l = loc || (given.has 'R' && isBelow loc l)
          return ⟨tree.nodes.map fun (l, node) =>
            let isDirectory := match node with
              | .directory _ => true
              | _ => false
            let mode? := modeOf (nodeMode node) job.mask isDirectory change
            match if changed l then mode? else none with
            | some mode => (l, withMode mode node)
            | none => (l, node)⟩

def lsOptions : Options where
  plain := "aABCcdFfgGhHiIklLmnNopqQrRsStuUvwxXZ1".toList
  taking := ['T']
  long := [("all", 'a'), ("almost-all", 'A'), ("directory", 'd'), ("classify", 'F'),
    ("reverse", 'r'), ("recursive", 'R'), ("size", 's')]
  trouble := 2
  strict := false

/-- How the names of a listing are marked. -/
def markOf (given : Given) (node : Node) : String :=
  match node with
  | .directory _ => if given.has 'p' || given.has 'F' then "/" else ""
  | .link _ => if given.has 'F' then "@" else ""
  | .file _ mode => if given.has 'F' && mode &&& 0o111 != 0 then "*" else ""

/-- The rights in a mode, and what kind of node has them. -/
def rightsOf (node : Node) : String :=
  let mode := nodeMode node
  let kind := match node with
    | .directory _ => "d"
    | .link _ => "l"
    | .file _ _ => "-"
  let rights (shift special : Nat) (letter : Char) : String :=
    let bits := mode / shift % 8
    let executes := bits &&& 1 != 0
    String.ofList [if bits &&& 4 != 0 then 'r' else '-', if bits &&& 2 != 0 then 'w' else '-',
      if mode &&& special != 0 then (if executes then letter else letter.toUpper)
      else if executes then 'x' else '-']
  kind ++ rights 64 0o4000 's' ++ rights 8 0o2000 's' ++ rights 1 0o1000 't'

/-- A line for a node: its rights, its links, its owner, its size and its name. -/
def longLine (size : Nat) (name : String) (node : Node) : String :=
  rightsOf node ++ " 1 root root " ++ toString size ++ " Jan  1  1970 " ++ name ++
    match node with
    | .link target => " -> " ++ Octets.ofSpelling target
    | _ => ""

/-- The text of some names, one after the other as options ask for. -/
def listed (given : Given) (entries : List (String × Node)) : String :=
  let entries := if given.has 'r' then entries.reverse else entries
  let texts := entries.map fun (name, node) =>
    (if given.has 'Q' then "\"" ++ name ++ "\"" else name) ++ markOf given node
  if given.has 'l' then
    String.join (entries.map fun (name, node) =>
      let size := match node with
        | .file bytes _ => bytes.size
        | .directory _ => 4096
        | .link target => (Octets.ofSpelling target).length
      longLine size name node ++ "\n")
  else if entries.isEmpty then ""
  else
    match given.lastOf ['1', 'm', 'x', 'C'] with
    | some 'm' => ", ".intercalate texts ++ "\n"
    | some 'x' => "  ".intercalate texts ++ "\n"
    | some 'C' => "  ".intercalate texts ++ "\n"
    | _ => String.join (texts.map (· ++ "\n"))

/-- What stands in a directory, as far as it is asked for. -/
def entriesOf (given : Given) (tree : FileTree) (loc : Location) : List (String × Node) :=
  let here (name : String) : Option (String × Node) :=
    (tree.get? (loc ++ [name])).map fun node => (Octets.ofSpelling name, node)
  let names := (Pattern.sorted (tree.names loc)).filterMap here
  let points : List (String × Node) := [".", ".."].map fun name => (name, .directory directoryMode)
  match given.lastOf ['a', 'A', 'f'] with
  | some 'A' => names
  | some _ => points ++ names
  | none => names.filter fun (name, _) => name.toList.head? != some '.'

/-- The listings of a directory and, if asked for, of those in it. -/
def listings (given : Given) (tree : FileTree) :
    Nat → Location × String → List (String × List (String × Node))
  | 0, _ => []
  | fuel + 1, (loc, path) =>
    let entries := entriesOf given tree loc
    let inner := if given.has 'R' then
        entries.filterMap fun (name, node) => match node with
          | .directory _ =>
            if name = "." || name = ".." then none
            else some (loc ++ [(Octets.toPath name).spelling], within path name)
          | _ => none
      else []
    (path, entries) :: inner.flatMap (listings given tree fuel)

/-- Lists files before directories, with titles over directories when there is more than one
operand. -/
def ls : Tool := ofWork do
  let given ← lsOptions.read
  let home := (← Work.job).directory
  let tree := (← Work.machine).tree
  let operands := if given.operands.isEmpty then ["."] else Pattern.sorted given.operands
  let follows := !(given.has 'l' || given.has 'd' || given.has 'F')
  let found ← operands.filterMapM fun name => do
    let direct := if follows then nodeAt tree home name else entryAt tree home name
    let answer := match direct with
      | .error _ => entryAt tree home name
      | answer => answer
    match answer with
    | .ok (loc, node) => return some (name, loc, node)
    | .error cause =>
      Work.refuse 2 ("cannot access " ++ quoted name ++ ": " ++ reasonText cause)
      return none
  let isListed : String × Location × Node → Bool
    | (_, _, .directory _) => !given.has 'd'
    | _ => false
  let files := (found.filter (!isListed ·)).map fun (name, _, node) => (name, node)
  let folders := (found.filter isListed).map fun (name, loc, _) => (loc, name)
  let folders := if given.has 'r' then folders.reverse else folders
  let blocks := folders.flatMap (listings given tree 64)
  let titled := decide (operands.length > 1) || given.has 'R'
  let texts := blocks.map fun (name, entries) =>
    (if titled then name ++ ":\n" else "") ++
      (if given.has 'l' then "total 0\n" else "") ++ listed given entries
  let texts := if files.isEmpty then texts else listed given files :: texts
  Work.put ("\n".intercalate texts)

end Agentry.Host.Tool
