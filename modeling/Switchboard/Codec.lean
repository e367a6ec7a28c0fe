import Switchboard.Message.Request
import Switchboard.Message.Response

/-!
Codecs turn requests into frames and frames into answers. The JSON codec writes every
request; a screening codec refuses those that lead with a forbidden word.
-/
namespace Switchboard

/-- The body of one message on the stream. -/
abbrev Frame := ByteArray

structure Codec where
  serialize : RequestId → Payload → Except Failure Frame
  deserialize : Frame → Except Failure Response

namespace Codec

def json : Codec where
  serialize id p := .ok (p.envelope id).text.toUTF8
  deserialize frame :=
    let bytes := frame.data.toList
    match Response.parse bytes with
    | .ok r => .ok r
    | .error f => .error (.decode (f.message bytes))

/-- Whether the first argument of a command, or the client name of a setup, is `word`. -/
def leadsWith (word : String) : Payload → Bool
  | .command c => c.args.head? = some word
  | .connect s => s.clientName = some word
  | .transaction _ => false

/-- The JSON codec, except that payloads which lead with `word` are refused. -/
def screening (word : String) : Codec where
  serialize id p :=
    if leadsWith word p then .error (.encode "argument cannot be encoded")
    else json.serialize id p
  deserialize := json.deserialize

end Codec

end Switchboard
