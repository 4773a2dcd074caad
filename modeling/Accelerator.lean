import Accelerator.Gateway.Pinning
import Accelerator.Gateway.Reset
import Accelerator.Engine.Leaks
import Accelerator.Protocol.Codec
import Accelerator.Gateway.Admission
import Accelerator.Gateway.Tokens
import Accelerator.Gateway.Doubt
import Accelerator.Gateway.Handles
import Accelerator.Wire.Decoder
import Accelerator.Wire.LengthEncoded
import Accelerator.Protocol.Response
import Accelerator.Gateway.ResultSets
import Accelerator.Protocol.Handshake
import Accelerator.Protocol.Login
import Accelerator.Gateway.Calendar
import Accelerator.Strings.Decimal
import Accelerator.Gateway.Temporal
import Accelerator.Gateway.BinaryValues
import Accelerator.Gateway.BinaryRows
import Accelerator.Engine.SingleStatement
import Accelerator.Strings.Fold
import Accelerator.Settings.Config
import Accelerator.Settings.Validate
import Accelerator.App.Modes
import Accelerator.Gateway.AuthLimit
import Accelerator.Protocol.NativePassword
import Accelerator.Gateway.Authentication
import Accelerator.Protocol.Listener
import Accelerator.Protocol.Serving
import Accelerator.Relay.Server
import Accelerator.Relay.Copy
import Accelerator.Relay.Stop
import Accelerator.Gateway.Execute
import Accelerator.Gateway.LongData
import Accelerator.Gateway.Lockout
import Accelerator.Gateway.ParameterCount
import Accelerator.Gateway.ZeroDates
import Accelerator.Engine.Reclassify
import Accelerator.Engine.LocalStatements
import Accelerator.Control.AdminAuth
import Accelerator.Gateway.StringDecoders
import Accelerator.Protocol.Bounds
import Accelerator.Sql.Literals
import Accelerator.Gateway.ResetText
import Accelerator.Sql.Layout
import Accelerator.Engine.Layout
import Accelerator.Gateway.Footprint
import Accelerator.Interact.Beside
import Accelerator.Gateway.Direct
import Accelerator.Gateway.Refinement
import Accelerator.Gateway.Shutdown
import Accelerator.App.Run
import Accelerator.Control.AdminSession
import Accelerator.Gateway.Conversation
import Accelerator.Gateway.Healthy
