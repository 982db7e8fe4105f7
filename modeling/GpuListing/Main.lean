import GpuListing.Dump.Report

/-! # The program

Reads the files that the command line names, runs, and writes what the run leaves. -/

namespace GpuListing

/-- The error of a system call. -/
def FileError.ofSystem : IO.Error → FileError
  | .noFileOrDirectory .. => .notFound
  | .inappropriateType _ code _ => if code = 21 then .isDirectory else .notDirectory
  | error => .system (toString error)

/-- The files at paths, as they are now. -/
def readFiles (paths : List String) : IO Files := do
  let found ← paths.mapM fun (path : String) => do
    try
      let data ← IO.FS.readBinFile path
      return (path, Except.ok data.toList)
    catch error => return (path, Except.error (FileError.ofSystem error))
  return fun path => ((found.find? fun file => file.1 == path).map Prod.snd).getD (.error .notFound)

end GpuListing

open GpuListing GpuListing.Dump in
/-- The command line. -/
def main (args : List String) : IO UInt32 := do
  let paths := match CommandLine.ofArgs args with
    | .dump options => options.paths
    | _ => []
  let report := run .inOrder (← readFiles paths) args
  IO.print report.stdout
  IO.eprint report.stderr
  return report.code.toUInt32
