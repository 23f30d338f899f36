import Fibre.LocalFunction.Metadata
import Fibre.LocalFunction.Merge
import Fibre.LocalFunction.Json
import Fibre.LocalFunction.JsonReading
import Fibre.LocalFunction.Encoder
import Fibre.LocalFunction.Codec
import Fibre.LocalFunction.Endpoint
import Fibre.DBus.Message
import Fibre.DBus.Traits
import Fibre.DBus.Push
import Fibre.DBus.Pop
import Fibre.DBus.RoundTrip
import Fibre.DBus.MethodCall
