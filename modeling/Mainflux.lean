import Mainflux.Lib.Run
import Mainflux.Lib.Prog
import Mainflux.Lib.Tx
import Mainflux.Lib.Redis
import Mainflux.Lib.Postgres
import Mainflux.Lib.Table
import Mainflux.Lib.Base64
import Mainflux.Lib.FlatJson
import Mainflux.Lib.Sha256
import Mainflux.Lib.Jwt
import Mainflux.Lib.Json
import Mainflux.Lib.Stream
import Mainflux.Lib.Text
import Mainflux.Lib.InfluxQL
import Mainflux.Lib.Series
import Mainflux.Lib.Hex
import Mainflux.Lib.Cfb
import Mainflux.Things.Repository
import Mainflux.Things.Effects
import Mainflux.Things.Cache
import Mainflux.Things.Service
import Mainflux.Things.Isolation
import Mainflux.Things.Connect
import Mainflux.Things.Connections
import Mainflux.Things.Access
import Mainflux.Things.Transparency
import Mainflux.Things.Revocation
import Mainflux.Things.Spelling
import Mainflux.Things.Granted
import Mainflux.Things.Events
import Mainflux.Bootstrap.Repository
import Mainflux.Bootstrap.Consumer
import Mainflux.Bootstrap.Configs
import Mainflux.Bootstrap.Producer
import Mainflux.Bootstrap.Service
import Mainflux.Bootstrap.Tables
import Mainflux.Bootstrap.Links
import Mainflux.Bootstrap.Runs
import Mainflux.Bootstrap.Agreement
import Mainflux.Bootstrap.Calls
import Mainflux.Bootstrap.Reconnect
import Mainflux.Bootstrap.Consistency
import Mainflux.Bootstrap.Retry
import Mainflux.Bootstrap.Registry
import Mainflux.Bootstrap.Tenancy
import Mainflux.Bootstrap.Unknown
import Mainflux.Bootstrap.Compensation
import Mainflux.Bootstrap.Exactness
import Mainflux.Bootstrap.Secure
import Mainflux.Errors
import Mainflux.Authn.Tokenizer
import Mainflux.Authn.Service
import Mainflux.Authn.Soundness
import Mainflux.Authn.Expiry
import Mainflux.Authn.Api
import Mainflux.Users.Service
import Mainflux.Users.Reset
import Mainflux.Adapters.RouteMap
import Mainflux.Adapters.Lora
import Mainflux.Adapters.Opcua
import Mainflux.Adapters.Codec
import Mainflux.Adapters.Delivery
import Mainflux.Messaging.Subject
import Mainflux.Messaging.Aedes
import Mainflux.Messaging.Verne
import Mainflux.Messaging.Republish
import Mainflux.Messaging.Sdk
import Mainflux.Storage.Senml
import Mainflux.Storage.Influx
import Mainflux.Storage.Readback
import Mainflux.Storage.FinalError
import Mainflux.Storage.Columns
import Mainflux.Storage.Condition
import Mainflux.Storage.Reader
import Mainflux.Storage.Query
import Mainflux.Storage.Postgres
import Mainflux.Storage.Cassandra
import Mainflux.Coap.Transport
import Mainflux.Messaging.Canonical
import Mainflux.Coap.Adapter
import Mainflux.Coap.Observing
import Mainflux.Coap.Notifications
import Mainflux.Coap.Registry
import Mainflux.Coap.Delivery
import Mainflux.Ws.Session
import Mainflux.UserControl.Grafana
import Mainflux.UserControl.Protocol
import Mainflux.UserControl.Tenants
import Mainflux.UserControl.Interleaving
import Mainflux.Transactions
import Mainflux.Bootstrap.RoundTrip
import Mainflux.Lib.Like
import Mainflux.Bootstrap.Listing
import Mainflux.Things.Listing
import Mainflux.Things.Bulk
import Mainflux.Lib.Bimap
import Mainflux.Adapters.LoraRoutes
import Mainflux.Lib.Binary64
import Mainflux.Lib.FloatText
import Mainflux.Adapters.OpcuaValues
import Mainflux.Adapters.OpcuaSubscribe
import Mainflux.Adapters.OpcuaRoutes
import Mainflux.Adapters.OpcuaReconnect
import Mainflux.Adapters.OpcuaBrowse
import Mainflux.Adapters.OpcuaPayload
import Mainflux.UserControl.Renewal
import Mainflux.UserControl.Retries
import Mainflux.Lib.JsonItems
import Mainflux.Storage.SenmlJson
import Mainflux.Users.Failures
import Mainflux.Users.OverTable
import Mainflux.Lib.Diff
import Mainflux.Bootstrap.Diff
import Mainflux.Things.CacheRuns
import Mainflux.Lib.Varint
import Mainflux.Lib.Wire
import Mainflux.Messaging.Wire
import Mainflux.Grpc.Wire
import Mainflux.Things.Grpc
import Mainflux.Authn.Grpc
import Mainflux.Lib.Topic
import Mainflux.Gateway.Authorization
import Mainflux.Gateway.Requests
import Mainflux.Lib.Nats
import Mainflux.Messaging.Handlers
import Mainflux.Messaging.Broker
import Mainflux.Messaging.Isolation
import Mainflux.Messaging.Injection
import Mainflux.Storage.Mongo
