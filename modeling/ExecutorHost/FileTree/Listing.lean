import ExecutorHost.Document.Basic
import ExecutorHost.Document.Writer
import ExecutorHost.FileTree.Change
import ExecutorHost.Text.Hex

/-!
# Listings of file trees

A listing describes the files of a working folder as an object from paths to contents: a text is a
file with that text, `null` is a folder, and an object with one member is a file with a document
(`json`), a file with bytes given in hexadecimal (`hex`) or a symbolic link (`link`). Missing
folders are made, and an entry that cannot be placed is passed over.
-/

namespace ExecutorHost.FileTree

/-- The entry that a content describes; what is none of the known forms is a folder. -/
def entryOf : Document → Entry
  | .string text => .file (bytesOf text)
  | .object [("json", document)] => .file (bytesOf document.text)
  | .object [("hex", .string digits)] => .file ((Text.bytesOfHex? digits.toList).getD [])
  | .object [("link", .string target)] => .link ⟨target⟩
  | _ => .folder

/-- The tree with an entry at a path, and the folders on the way to it. -/
def placeEntry (tree : FileTree) (path : Path) (entry : Entry) : Except IoFault FileTree := do
  let bound := path.text.length
  match entry with
  | .folder => tree.makeFolders bound path
  | .file bytes => (← tree.makeFolders bound (path.parent?.getD ⟨""⟩)).write path bytes
  | .link target =>
    (← tree.makeFolders bound (path.parent?.getD ⟨""⟩)).putNew path (.link target)

/-- The file tree that a listing describes, with the working folder that its paths start from. -/
def ofListing (working : Path) (listing : Members) : FileTree :=
  listing.foldl
    (fun tree (name, content) =>
      match tree.placeEntry (working.join ⟨name⟩) (entryOf content) with
      | .ok placed => placed
      | .error _ => tree)
    (empty working)

end ExecutorHost.FileTree
