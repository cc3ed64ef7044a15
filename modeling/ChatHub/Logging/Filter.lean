import ChatHub.Logging.Directive
/-!
Which entries a log takes.  Of the directives of a filter that apply to an entry the most specific
one decides.
-/

namespace ChatHub.Logging

abbrev Filter := List Directive

namespace Filter

def parts (s : String) : List (List Char) :=
  (Text.splitAt ',' s.toList).filter fun p => !p.isEmpty

/-- Without a directive, errors alone are let through. -/
def orDefault (ds : List Directive) : Filter :=
  if ds.isEmpty then [.ofBound Level.error.rank] else ds

/-- A filter all of whose directives can be read. -/
def ofText? (s : String) : Option Filter := ((parts s).mapM Directive.ofText?).map orDefault

/-- A filter of those directives that can be read. -/
def ofReadable (s : String) : Filter := orDefault ((parts s).filterMap Directive.ofText?)

/-- The directive that decides about an entry; of two that are equally specific the later. -/
def decisive? (target : String) (fields : List String) (f : Filter) : Option Directive :=
  (f.filter (Directive.appliesTo target fields)).foldl
    (fun best d =>
      match best with
      | some b => if b.atMostAsSpecific d then some d else some b
      | none => some d) none

/-- Whether an entry passes that has a target and fields of the given names. -/
def allows (level : Level) (target : String) (fields : List String) (f : Filter) : Bool :=
  (f.decisive? target fields).any fun d => level.rank ≤ d.bound

/-- The filter for a level of the settings. -/
def ofLevel (level : String) : Filter :=
  ofReadable ("chirm_server=" ++ level ++ ",chirm_realtime=" ++ level ++
    ",tower_http=debug,axum::rejection=trace")

/-- A filter that is given in the environment counts, if it can be read. -/
def choose (given : Option String) (level : String) : Filter :=
  (given.bind ofText?).getD (ofLevel level)

end Filter

end ChatHub.Logging
