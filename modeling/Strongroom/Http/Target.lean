import Strongroom.Http.Percent

/-!
# Request targets

A request names what it is about by a path and a query. The target of a request may also be given in
full, with a scheme and an authority before the path, and may end in a fragment; neither matters.
-/

namespace Strongroom.Http

/-- The path and the query of a request. -/
structure Target where
  /-- The path as it was sent. -/
  path : Bytes
  /-- The query behind the question mark, if there is one. -/
  query : Option Bytes
  deriving DecidableEq, Repr

namespace Target

/-- What is behind the authority in a full target, if there is a scheme. -/
def afterAuthority? : Bytes → Option Bytes
  | [] => none
  | b :: rest =>
    if (b :: rest).take 3 = utf8 "://" then
      some ((rest.drop 2).dropWhile fun x =>
        x ≠ Json.ascii '/' && x ≠ Json.ascii '?' && x ≠ Json.ascii '#')
    else afterAuthority? rest

/-- What a target is without scheme and authority. A target that does not start with a slash and has
no scheme names an authority only. -/
def origin (target : Bytes) : Bytes :=
  if target.head? = some (Json.ascii '/') || target.head? = some (Json.ascii '*') then target
  else (afterAuthority? target).getD []

/-- Reads a target. -/
def ofText (text : String) : Target :=
  let (path, query) := cut (Json.ascii '?') (cut (Json.ascii '#') (origin (utf8 text))).1
  ⟨path, query⟩

/-- The path that is routed: an absent path is that of the root. -/
def routedPath (t : Target) : Bytes :=
  if t.path.isEmpty then [Json.ascii '/'] else t.path

/-- What of a target the code of a request covers: the path and the query as they were sent. -/
def context (t : Target) : Bytes :=
  match t.query with
  | some query => t.path ++ Json.ascii '?' :: query
  | none => t.routedPath

/-- The segments of an absolute path as they were sent. -/
def segments? (t : Target) : Option (List Bytes) :=
  match splitOn (Json.ascii '/') t.routedPath with
  | [] :: segments => some segments
  | _ => none

end Target

end Strongroom.Http
