import LuaGlue.AliasTable

namespace LuaGlue

/-- The choices that shape the generated code. The defaults fit the game runtime the code is
compiled into. -/
structure Settings where
  /-- What follows `#include`, with its brackets or quotes. -/
  includes : List String :=
    ["<cassert>", "<string>", "<SDL/SDL.h>", "\"interpreter.h\"", "\"lib/actor.h\"",
    "\"lib/animation.h\"", "\"lib/area.h\"", "\"lib/classes.h\"", "\"lib/event.h\"",
    "\"lib/game.h\"", "\"lib/ground.h\"", "\"lib/image.h\"", "\"lib/mainloop.h\"",
    "\"lib/rect.h\"", "\"lib/resource_manager.h\"", "\"lib/scene.h\"", "\"lib/shortcuts.h\"",
    "\"lib/sprite.h\"", "\"lib/surface.h\"", "\"lib/unittest.h\"", "\"lib/user_interface.h\"",
    "\"lib/user_interface_element.h\"", "\"lib/utils.h\"", "\"lib/vector2d.h\"",
    "\"lib/viewport.h\"", "\"lua_game.h\"", "\"lua_user_interface.h\"", "\"lua_utils.h\"",
    "\"reference_counting_lua.h\""]
  /-- What follows `using`. -/
  usings : List String := ["std::string"]
  aliases : AliasTable := AliasTable.standard
  /-- The name of the function that registers everything. -/
  registerFunction : String := "registerLuaWrappings"
  /-- The object at which classes and members are registered. -/
  interpreter : String := "interpreter"
  deriving DecidableEq

end LuaGlue
