import LintRemedy.Text.Basic

/-! The few things that are asked of a file system. Commands are written over any monad that has
them, so that the same text of a command runs on a disk and on a tree in memory. -/
namespace LintRemedy

inductive IoFailure where
  | missing
  | alreadyExists
  | notDirectory
  | isDirectory
  | notText
  | nameTooLong
  | nulInName
  | other (text : String)
  deriving DecidableEq, Repr

def IoFailure.text : IoFailure → String
  | missing => "No such file or directory (os error 2)"
  | alreadyExists => "File exists (os error 17)"
  | notDirectory => "Not a directory (os error 20)"
  | isDirectory => "Is a directory (os error 21)"
  | notText => "stream did not contain valid UTF-8"
  | nameTooLong => "File name too long (os error 36)"
  | nulInName => "file name contained an unexpected NUL byte"
  | other text => text

inductive EntryKind where
  | file
  | directory
  deriving DecidableEq, Repr

structure FileSystem (m : Type → Type) where
  read : String → m (Except IoFailure Text)
  kind : String → m (Option EntryKind)
  /-- Puts a text in the place of what a file holds, or leaves the file as it is. -/
  replace : String → Text → m (Except IoFailure Unit)
  create : String → m (Except IoFailure Unit)
  /-- Writes a text to an empty file. A failure may leave a part of it there. -/
  fill : String → Text → m (Except IoFailure Unit)
  remove : String → m (Except IoFailure Unit)

end LintRemedy
