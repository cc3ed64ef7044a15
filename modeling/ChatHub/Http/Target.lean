import ChatHub.Text.Split
/-!
What a request is for: the path and the query of its address.  Nothing in them is decoded.
-/

namespace ChatHub.Http

open Text

structure Target where
  path : String
  query : Option String
deriving DecidableEq, Repr

/-- What follows `scheme://host` in an address, if it has that form. -/
def afterHost (cs : List Char) : Option (List Char) :=
  match cs with
  | [] => none
  | ':' :: '/' :: '/' :: rest => some (rest.dropWhile fun c => c != '/' && c != '?' && c != '#')
  | c :: rest => if c = '/' || c = '?' || c = '#' then none else afterHost rest

/-- The path and query at the end of an address.  A fragment is no part of a request. -/
def Target.ofPath (cs : List Char) : Target :=
  let (withoutFragment, _) := cutAt '#' cs
  let (path, query) := cutAt '?' withoutFragment
  ⟨String.ofList path, query.map String.ofList⟩

/-- The path and query of an address.  A whole address without a path means the root.  A host alone
has no path, and a star stands for the server as a whole. -/
def Target.ofText (uri : String) : Target :=
  let cs := uri.toList
  match afterHost cs with
  | some own =>
      let target := Target.ofPath own
      if target.path.isEmpty then { target with path := "/" } else target
  | none =>
      if cs.head? = some '/' || uri == "*" then Target.ofPath cs else ⟨"", none⟩

/-- The value of the first pair of a name in the query. -/
def Target.parameter? (t : Target) (name : String) : Option String :=
  t.query.bind fun q =>
    (splitAt '&' q.toList).findSome? fun pair =>
      match cutAt '=' pair with
      | (n, some value) => if String.ofList n == name then some (String.ofList value) else none
      | (_, none) => none

end ChatHub.Http
