import Vigil.Files.Resolve
import Vigil.Text.Utf8
/-! The files that every rehearsed machine has. -/
namespace Vigil.Rehearsal.Machine

/-- How the file of a program begins. -/
def nativeMark : List UInt8 := [127, 69, 76, 70]

/-- The programs that scripts can call. -/
def programs : List String := [
  "sh", "dash", "bash", "true", "false", "cat", "echo", "printf", "sleep", "env", "test", "[", "cp",
  "mv", "rm", "mkdir", "rmdir", "touch", "ls", "pwd", "readlink", "cut", "tr", "wc", "head", "tail",
  "sort", "uniq", "seq", "expr", "basename", "dirname", "tee", "rev", "id", "uname", "kill", "ps",
  "date", "grep", "egrep", "fgrep", "sed", "xargs", "tac", "nl", "paste", "fold", "yes", "which",
  "realpath", "printenv", "whoami", "tty", "ln", "nohup", "setsid", "timeout", "nice"]

def programDir : Files.Place := ["usr", "bin"]

/-- Only what is installed may be executed. -/
def isExecutable (place : Files.Place) : Bool := programDir.isPrefixOf place

/-- The values that processes begin with. -/
def environment : List (List Char × List Char) :=
  [("HOME".toList, "/root".toList),
    ("PATH".toList, "/usr/local/sbin:/usr/local/bin:/usr/sbin:/usr/bin:/sbin:/bin".toList)]

def files : Files.Tree :=
  let dirs := ["/dev", "/etc", "/home", "/proc", "/root", "/tmp", "/usr/bin", "/usr/local/bin", "/var"]
  let tree := dirs.foldl Files.Tree.plantDir {}
  let tree := programs.foldl (fun t name => t.put (programDir ++ [name]) (.file nativeMark)) tree
  let tree := tree.plant "/etc/passwd" (Utf8.encodeText "root:x:0:0:root:/root:/bin/sh\n")
  (tree.put ["bin"] (.link "usr/bin")).put ["dev", "null"] .device

end Vigil.Rehearsal.Machine
