import CommandDeck.Storage.FileTree

/-!
# The file tree of a system

Some folders and files stand at the same place in every system, whatever else is there.
-/

namespace CommandDeck

/-- The folders that every system has, each after those it stands in. -/
def systemFolders : List Address := [
  ["bin"], ["boot"], ["dev"], ["etc"], ["home"], ["lib"], ["media"], ["mnt"], ["opt"], ["proc"],
  ["root"], ["run"], ["sbin"], ["srv"], ["sys"], ["tmp"], ["usr"], ["usr", "bin"], ["usr", "lib"],
  ["usr", "local"], ["usr", "local", "bin"], ["usr", "local", "sbin"], ["usr", "sbin"], ["usr", "share"], ["var"],
  ["var", "log"], ["var", "tmp"]]

/-- The files that every system has. Nothing is known of what they hold. -/
def systemFiles : List (Address × String) := [
  (["dev"], "full"), (["dev"], "null"), (["dev"], "random"), (["dev"], "tty"), (["dev"], "urandom"),
  (["dev"], "zero"), (["etc"], "group"), (["etc"], "hostname"), (["etc"], "hosts"),
  (["etc"], "passwd"), (["etc"], "profile"), (["etc"], "resolv.conf"), (["etc"], "shadow")]

namespace FileTree

/-- The tree of a system in which nothing has been done yet, with an empty working folder. -/
def ofSystem : FileTree :=
  let folders := (systemFolders ++ [["work"]]).foldl
    (fun t a => t.put a.dropLast (a.getLastD "") (.folder [])) FileTree.empty
  let all := systemFiles.foldl (fun t f => t.put f.1 f.2 (.file .empty)) folders
  { all with working := ["work"] }

end FileTree

end CommandDeck
