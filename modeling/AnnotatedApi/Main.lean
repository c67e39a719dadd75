import AnnotatedApi.CommandLine.Run

/-! # The command line

Reads the arguments, runs the command on the files of the disk, and prints what it yields. -/

namespace AnnotatedApi.CommandLine

/-! ## Messages -/

/-- How to use the program. -/
def usage : String :=
  "Generates OpenAPI documents from annotated handlers and models.\n\n" ++
  "Usage: annotated-api [OPTIONS] <COMMAND>\n\n" ++
  "Commands:\n" ++
  "  generate <PROJECT_PATH>  Generate the OpenAPI document of a project\n" ++
  "  show <ARTIFACT>          Print a previously generated document\n" ++
  "  help                     Print this message\n\n" ++
  "Options:\n" ++
  "  -v, --verbose  Enable verbose output\n" ++
  "  -h, --help     Print help\n" ++
  "  -V, --version  Print version\n\n" ++
  "Options of generate:\n" ++
  "  -c, --config <FILE>    Configuration file (YAML or JSON)\n" ++
  "  -r, --routes <FILE>    Route manifest (YAML or JSON)\n" ++
  "  -f, --format <FORMAT>  Output format (yaml or json)\n" ++
  "  -o, --output <FILE>    Output file path"

/-- What is printed for arguments that give no command, and whether that is an error. -/
def UsageError.report : UsageError → String × Bool
  | help => (usage, false)
  | version => ("annotated-api 0.1.0", false)
  | nothing => (usage, true)
  | missingCommand => ("error: a command is required but was not given", true)
  | unknownCommand => ("error: unrecognized command", true)
  | unknownArgument => ("error: unexpected argument", true)
  | missingArgument => ("error: a required argument was not given", true)
  | badValue => ("error: invalid or missing value of an argument", true)
  | tooManyValues => ("error: unexpected value of an option", true)
  | repeatedArgument => ("error: an argument cannot be used several times", true)

/-- What is printed for an error. -/
def RunError.report (e : RunError) : String :=
  "Error: " ++ e.message ++ (e.cause?.elim "" fun cause => "\n\nCaused by:\n    " ++ cause.message)

/-! ## Files of the disk -/

/-- Whether there is a directory at a path. -/
def isDirectoryOnDisk (path : String) : IO Bool := do
  try (← IO.FS.realPath path).isDir
  catch _ => return false

/-- Whether there is a file at a path. -/
def isFileOnDisk (path : String) : IO Bool := do
  try return (← (← IO.FS.realPath path).pathExists) && !(← isDirectoryOnDisk path)
  catch _ => return false

/-- Read a file. -/
def readFromDisk (path : String) : IO (Except FileError ByteArray) := do
  try return .ok (← IO.FS.readBinFile path)
  catch
    | .noFileOrDirectory .. => return .error .notFound
    | _ => return .error .inaccessible

/-- Write a file through a temporary one beside it. -/
def writeToDisk (path : String) (content : ByteArray) : IO (Except FileError Unit) := do
  try
    let directory := (Text.splitChar '/' path).dropLast
    let directory := if directory.isEmpty then "." else "/".intercalate directory ++ "/"
    IO.FS.createDirAll directory
    let temporary := path ++ ".tmp"
    IO.FS.writeBinFile temporary content
    IO.FS.rename temporary path
    return .ok ()
  catch _ => return .error .inaccessible

/-- The files below a directory. -/
partial def filesOnDiskBelow (isSkipped : String → Bool) (path : String) :
    IO (List (List String)) := do
  try
    let mut found := []
    for entry in ← (← IO.FS.realPath path).readDir do
      let name := entry.fileName
      if !isSkipped name then
        let place := FilePath.join path name
        if ← isDirectoryOnDisk place then
          for names in ← filesOnDiskBelow isSkipped place do
            found := (name :: names) :: found
        else found := [name] :: found
    return found
  catch _ => return []

/-- Access to the files of the disk. -/
def diskAccess : FileAccess IO where
  isFile := isFileOnDisk
  isDirectory := isDirectoryOnDisk
  read := readFromDisk
  write := writeToDisk
  filesBelow := filesOnDiskBelow

end AnnotatedApi.CommandLine

open AnnotatedApi.CommandLine

/-- Run the program. -/
def main (arguments : List String) : IO UInt32 := do
  match Invocation.read arguments with
  | .error e =>
      let (text, isError) := e.report
      if isError then
        IO.eprintln text
        return 2
      else
        IO.println text
        return 0
  | .ok invocation =>
      match ← (invocation.command.run diskAccess).run with
      | .ok text =>
          IO.print text
          return 0
      | .error e =>
          IO.eprintln e.report
          return 1
