import LuaGlue.Binder
import LuaGlue.Glue.Prelude
import LuaGlue.Glue.Registration

namespace LuaGlue

/-- Writes the generated text to a sink while the description is read: the head, the glue functions
in the order of the declarations, and the registration function. An error ends it; what was written
before stays. -/
def generate (settings : Settings) (sink : Sink) (source : String) : Outcome Binder :=
  (((Binder.writeLines { sink } (Glue.preludeLines settings)).andThen fun b =>
    ((Binder.hear settings.aliases).run b source).map Hearing.listener).andThen fun b =>
      b.writeLines (Glue.registrationLines settings b.registry))

/-- A binder to which nothing was told and that has written nothing. -/
def Binder.fresh (limit : Option Nat) : Binder where
  sink := .ofLimit limit

/-- The binder that a description is read to, where there is no limit: it has written the head and
nothing else. -/
def Binder.opened (settings : Settings) : Binder :=
  (Binder.writeLines { sink := .ofLimit none } (Glue.preludeLines settings)).state

end LuaGlue
