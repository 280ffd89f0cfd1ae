import ByteStreams.Channel.Writing
import ByteStreams.Value.Item

/-! Writing items to a sink. -/

namespace ByteStreams

namespace Value

open Channel (Writing)

/-- Write pieces one after another, as far as the sink takes them. -/
def writePieces : List Bytes → Writing (Except Failure Unit)
  | [] => .done (.ok ())
  | piece :: rest =>
      .writeAll piece fun
        | .ok () => writePieces rest
        | .error failure => .done (.error (.channel failure))

/-- Write an item, in the order of the settings or one of its own. An item that
cannot be written puts nothing into the sink. -/
def write (settings : Settings) (item : Item) (order : Option ByteOrder) :
    Writing (Except Failure Unit) :=
  match item.pieces (settings.effective order) with
  | .error fault => .done (.error (.fault fault))
  | .ok pieces => writePieces pieces

def flush : Writing (Except Failure Unit) :=
  .settle fun answer => .done (answer.mapError Failure.channel)

end Value

end ByteStreams
