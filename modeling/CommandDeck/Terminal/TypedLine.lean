import CommandDeck.Text.Cluster

/-!
# Lines as they are typed

A line of input may hold backspaces. A backspace takes away the cluster before it, which a reader takes
for one character. Of each cluster that is typed the size is remembered in one octet, so of a cluster
of more than 255 octets a backspace takes away only as many octets as are left over by 256.
-/

namespace CommandDeck

/-- What has been typed, the last character first, and the sizes of the clusters, the last one first. -/
structure TypedLine where
  chars : List Char
  sizes : List Nat
  deriving DecidableEq

namespace TypedLine

def empty : TypedLine := ⟨[], []⟩

/-- The octets of a cluster, as far as one octet tells their number. -/
def sizeOf (cluster : List Char) : Nat :=
  cluster.foldl (fun n c => n + c.utf8Size) 0 % 256

/-- A text, the last character first, without so many octets at its end. -/
def dropOctets : Nat → List Char → List Char
  | _, [] => []
  | n, c :: rest => if c.utf8Size ≤ n then dropOctets (n - c.utf8Size) rest else c :: rest

def type (t : TypedLine) (cluster : List Char) : TypedLine :=
  if cluster = ['\x08'] then
    match t.sizes with
    | [] => t
    | size :: rest => ⟨dropOctets size t.chars, rest⟩
  else ⟨cluster.reverse ++ t.chars, sizeOf cluster :: t.sizes⟩

def read (s : String) : String :=
  String.ofList ((Text.clusters s.toList).foldl type empty).chars.reverse

end TypedLine

end CommandDeck
