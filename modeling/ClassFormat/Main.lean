import ClassFormat.CommandLine.Run
import ClassFormat.Source.Create

open ClassFormat in
def loadFile (tree : FileTree) (path : String) : IO FileTree := do
  match ← (IO.FS.readBinFile path).toBaseIO with
  | .ok bytes => return (tree.write (.mk path) (.plain bytes.toList)).toOption.getD tree
  | .error _ => return tree

open ClassFormat in
def main (arguments : List String) : IO UInt32 := do
  let tree ← arguments.foldlM loadFile {}
  let output := CommandLine.run tree arguments
  IO.print output.stdout
  IO.eprint output.stderr
  return output.exitCode
