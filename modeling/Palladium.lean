import Palladium.Uint256
import Palladium.Compact
import Palladium.Params
import Palladium.Primitives
import Palladium.Chain
import Palladium.Pow
import Palladium.Difficulty
import Palladium.Lwma
import Palladium.LwmaReference
import Palladium.Retarget
import Palladium.Reachable
import Palladium.Schedule
import Palladium.Merkle
import Palladium.Serialize
import Palladium.AuxPow
import Palladium.Mining
import Palladium.BlockTemplate
import Palladium.TemplateTransactions
import Palladium.ActivationArgs
import Palladium.UniValue
import Palladium.Generate
import Palladium.Submit
import Palladium.TemplateRequest
import Palladium.Response
