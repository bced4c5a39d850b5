import BlockStudio.Language.GenusBuilder

namespace BlockStudio

structure GenusRecipe where
  name : String
  kind : BlockKind
  steps : List (List String)
deriving Repr, DecidableEq

def GenusBuilder.follow (b : GenusBuilder) : List String → GenusBuilder
  | ["label", s] => b.label s
  | ["command"] => b.command
  | ["primitive", op, description] => b.primitive op description
  | ["plug", type] => b.plug type
  | ["plug_list", element] => b.plugList element
  | ["poly_plug"] => b.polyPlug
  | ["untyped_plug"] => b.untypedPlug
  | ["plug_type", type] => b.plugType type
  | ["plug_exclude", type] => b.plugExclude type
  | ["socket", label, type] => b.socket label type
  | ["poly_socket", label] => b.polySocket label
  | ["untyped_socket", label] => b.untypedSocket label
  | ["command_socket", label] => b.commandSocket label
  | ["optional_command_socket", label] => b.optionalCommandSocket label
  | ["socket_allow", label, type] => b.socketAllow label type
  | ["socket_exclude", label, type] => b.socketExclude label type
  | _ => b

def GenusRecipe.genus (r : GenusRecipe) : Genus :=
  (r.steps.foldl GenusBuilder.follow (.new r.name r.kind)).build

end BlockStudio
