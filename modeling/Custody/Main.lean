import Custody.CommandLine
import Std.Time.DateTime

/-!
The program: the command line on the machine it is started on.
-/
namespace Custody.Main

open CommandLine

def faultOf : IO.Error → FileFault
  | .noFileOrDirectory .. => .missing
  | .alreadyExists .. => .exists
  | .inappropriateType _ 21 _ => .isDirectory
  | .inappropriateType _ 20 _ => .notDirectory
  | .invalidArgument _ 36 _ => .nameTooLong
  | e => .other (toString e)

def guarded (a : IO α) : IO (Except FileFault α) := do
  try return .ok (← a)
  catch e => return .error (faultOf e)

/-- What a path leads to: a directory can be opened by its own dot as well. -/
def kindOf (path : String) : IO (Except FileFault FileKind) := do
  match ← guarded (IO.FS.Handle.mk path .read) with
  | .error .isDirectory => return .ok .directory
  | .error e => return .error e
  | .ok _ =>
    match ← guarded (IO.FS.Handle.mk (path ++ "/.") .read) with
    | .error .notDirectory => return .ok .file
    | _ => return .ok .directory

/-- A bijection of 64-bit words whose results look unrelated to their arguments. -/
def mix (n : UInt64) : UInt64 :=
  let a := n + 0x9E3779B97F4A7C15
  let b := (a ^^^ (a >>> 30)) * 0xBF58476D1CE4E5B9
  let c := (b ^^^ (b >>> 27)) * 0x94D049BB133111EB
  c ^^^ (c >>> 31)

def hex (width n : Nat) : String :=
  let digits := Nat.toDigits 16 n
  .ofList (List.replicate (width - digits.length) '0' ++ digits)

def idText (high low : UInt64) : String :=
  let high := ((high &&& 0xFFFFFFFFFFFF0FFF) ||| 0x4000).toNat
  let low := ((low &&& 0x3FFFFFFFFFFFFFFF) ||| 0x8000000000000000).toNat
  "-".intercalate [hex 8 (high >>> 32), hex 4 ((high >>> 16) % 0x10000), hex 4 (high % 0x10000),
    hex 4 (low >>> 48), hex 12 (low % 0x1000000000000)]

def supplyFrom (first second : UInt64) (now : Time.Instant) : Supply where
  draws n :=
    let word (k : Nat) : UInt64 := mix (first ^^^ mix (second + .ofNat (8 * n + k)))
    ⟨idText (word 0) (word 1), idText (word 2) (word 3), hex 4 ((word 4).toNat % 65536), now⟩
  used := 0

def wordOf (bytes : List UInt8) : UInt64 := bytes.foldl (fun w b => w * 256 + b.toUInt64) 0

def clock : IO Time.Instant := do
  let t ← Std.Time.Timestamp.now
  let nanos := t.toNanosecondsSinceUnixEpoch.val
  return ⟨Int.fdiv nanos 1000000000, (Int.fmod nanos 1000000000).toNat⟩

def rightsOf (mode : Nat) : IO.AccessRight := ⟨mode.testBit 2, mode.testBit 1, mode.testBit 0⟩

instance : Host IO where
  home := return (← IO.getEnv "HOME").getD ""
  workingDirectory := return (← IO.currentDir).toString
  input := do (← IO.getStdin).readToEnd
  status := kindOf
  readFile path := guarded (IO.FS.readBinFile path)
  writeFile path bytes := guarded (IO.FS.writeBinFile path bytes)
  removeFile path := guarded (IO.FS.removeFile path)
  makeDirectory path := guarded (IO.FS.createDir path)
  setMode path mode := do
    let rights := ⟨rightsOf (mode >>> 6), rightsOf (mode >>> 3), rightsOf mode⟩
    let _ ← guarded (IO.setAccessRights path rights)
  drawing f := do
    let bytes := (← IO.getRandomBytes 16).toList
    return (f (supplyFrom (wordOf (bytes.take 8)) (wordOf (bytes.drop 8)) (← clock))).1

end Custody.Main

open Custody in
def main (words : List String) : IO UInt32 := do
  let report : CommandLine.Report ← CommandLine.run words
  IO.print report.output
  IO.eprint report.errors
  return .ofNat report.exit
