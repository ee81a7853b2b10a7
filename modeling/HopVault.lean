import HopVault.Framework.Rely
import HopVault.Framework.Budget
import HopVault.HealthCheck
import HopVault.ConcurrentCircuits
import HopVault.AtMostOnce
import HopVault.RetryRace
import HopVault.RebuildAgreement
import HopVault.Directory.Registry
import HopVault.Directory.Server
import HopVault.Directory.Node
import HopVault.Directory.LiveNode
import HopVault.Directory.History
import HopVault.Framework.JsonText
import HopVault.Directory.Query
import HopVault.Directory.Service
import HopVault.Directory.WellFormed
import HopVault.Directory.Circuit
import HopVault.Directory.Window
import HopVault.Directory.Endpoints
import HopVault.Directory.StaleReadings
import HopVault.KeyStore
import HopVault.Framework.Count
import HopVault.OnionChains
import HopVault.Framework.RetryLoop
import HopVault.Attempts
import HopVault.Python.Json
import HopVault.Python.CircuitClient
import HopVault.Python.RetryMirror
import HopVault.Python.OnionFormat
import HopVault.ResponseAuthenticity
import HopVault.Framework.Path
import HopVault.ExitPaths
import HopVault.GuardAsExit
import HopVault.DirectExit
import HopVault.Headers
import HopVault.Directory.Addresses
import HopVault.Directory.Uuid
import HopVault.Directory.SingleDocument
import HopVault.Framework.Url
import HopVault.RebuildTrace
import HopVault.Attribution
import HopVault.CircuitFaults
import HopVault.Anonymity
import HopVault.Directory.Backoff
import HopVault.Directory.GeneratedID
import HopVault.Directory.TrimmedID
import HopVault.Python.Charts
import HopVault.Python.HealthChecker
import HopVault.Python.ThroughputRamp
import HopVault.Secrecy
import HopVault.Framework.Traced
import HopVault.FaultMasking
import HopVault.Deployment
import HopVault.Framework.Calendar
import HopVault.Framework.Csv
import HopVault.Python.Timestamps
import HopVault.Python.RequestLog
import HopVault.Framework.PastTime
import HopVault.Python.SetUp
import HopVault.Python.RecoveryUser
import HopVault.Python.Interop
import HopVault.Python.HonestRun
import HopVault.Python.Deployment
import HopVault.Startup
import HopVault.Fleet
