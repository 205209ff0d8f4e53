import HeatingPlant.CommandLine.Disk
import HeatingPlant.CommandLine.Options
import HeatingPlant.CommandLine.Path
import HeatingPlant.CommandLine.Plan
import HeatingPlant.CommandLine.Rehearsal
import HeatingPlant.Decimal.Binary64
import HeatingPlant.Decimal.Shortest
import HeatingPlant.Decimal.Text
import HeatingPlant.Facility
import HeatingPlant.History
import HeatingPlant.Journal.Line
import HeatingPlant.Journal.Notice
import HeatingPlant.Journal.ServiceNotice
import HeatingPlant.Main
import HeatingPlant.Modbus.Action
import HeatingPlant.Modbus.Fault
import HeatingPlant.Modbus.Frame
import HeatingPlant.Modbus.Reply
import HeatingPlant.Modbus.Sink
import HeatingPlant.Modbus.Source
import HeatingPlant.Net.Binding
import HeatingPlant.Net.Endpoint
import HeatingPlant.Operation
import HeatingPlant.Number.Hex
import HeatingPlant.Number.Whole
import HeatingPlant.Number.Word
import HeatingPlant.Plant.Controller
import HeatingPlant.Plant.Crash
import HeatingPlant.Plant.Dynamics
import HeatingPlant.Plant.State
import HeatingPlant.Plant.Status
import HeatingPlant.Plant.Thermal
import HeatingPlant.Plant.Valve
import HeatingPlant.Proofs.Facility.Crash
import HeatingPlant.Proofs.Facility.Loop
import HeatingPlant.Proofs.Floating.Arithmetic
import HeatingPlant.Proofs.Floating.Nearest
import HeatingPlant.Proofs.Floating.Operations
import HeatingPlant.Proofs.Floating.Rounding
import HeatingPlant.Proofs.Floating.Unpacked
import HeatingPlant.Proofs.Modbus.BackendFailure
import HeatingPlant.Proofs.Plant.Bounds
import HeatingPlant.Proofs.Plant.Burst
import HeatingPlant.Proofs.Plant.Frame
import HeatingPlant.Proofs.Plant.Temperature
import HeatingPlant.Proofs.Session.Turn
import HeatingPlant.Proofs.Settings.Soundness
import HeatingPlant.Registers.Bank
import HeatingPlant.Registers.Tenths
import HeatingPlant.Service
import HeatingPlant.Session
import HeatingPlant.Settings.Check
import HeatingPlant.Settings.Document
import HeatingPlant.Settings.Fields
import HeatingPlant.Settings.Sections
import HeatingPlant.Simulation
import HeatingPlant.Toml.Quoted
import HeatingPlant.Toml.Reader
import HeatingPlant.Toml.Scalar
import HeatingPlant.Toml.Value
import HeatingPlant.Toml.Writer
import HeatingPlant.Proofs.Modbus.Grammar
import HeatingPlant.Proofs.Plant.Degraded
import HeatingPlant.Proofs.Registers.Writes
import HeatingPlant.Proofs.Plant.AfterBurst
import HeatingPlant.Proofs.Modbus.Framing
import HeatingPlant.Proofs.Modbus.Channel
import HeatingPlant.Proofs.Session.Meaning
import HeatingPlant.Proofs.Floating.Whole
import HeatingPlant.Proofs.Registers.Tenths
import HeatingPlant.Proofs.Registers.ReadBack
import HeatingPlant.Proofs.Modbus.Decoding
import HeatingPlant.Proofs.Modbus.Replies
import HeatingPlant.Proofs.Facility.LastWriter
import HeatingPlant.Proofs.Session.LostReplies
import HeatingPlant.Proofs.Plant.HeatBalance
import HeatingPlant.Proofs.Plant.Frost
import HeatingPlant.Proofs.Plant.MildWeather
import HeatingPlant.Proofs.Plant.CommandAfterCrash
import HeatingPlant.Proofs.Operation.Standstill
import HeatingPlant.Proofs.Operation.Clocks
import HeatingPlant.Proofs.Plant.Authority
import HeatingPlant.Proofs.Facility.Isolation
import HeatingPlant.Proofs.Session.Cut
import HeatingPlant.Proofs.Session.Stopping
import HeatingPlant.Proofs.Service.Roll
import HeatingPlant.Proofs.Service.Accounting
import HeatingPlant.Proofs.Decimal.Binary64
import HeatingPlant.Proofs.Floating.Scientific
import HeatingPlant.Proofs.Decimal.Shortest
import HeatingPlant.Proofs.Decimal.Digits
import HeatingPlant.Proofs.Toml.Bare
import HeatingPlant.Proofs.Toml.Reals
import HeatingPlant.Proofs.Toml.Strings
import HeatingPlant.Proofs.Toml.Documents
import HeatingPlant.Proofs.Net.Endpoint
import HeatingPlant.Proofs.Settings.Fields
import HeatingPlant.Proofs.Settings.RoundTrip
import HeatingPlant.Proofs.Plant.ValveTravel
import HeatingPlant.Proofs.Registers.WritePaths
import HeatingPlant.Proofs.Session.Journal
import HeatingPlant.Proofs.Operation.StatusTrace
import HeatingPlant.Proofs.Floating.Truncation
import HeatingPlant.Proofs.Plant.ControlLaw
import HeatingPlant.Proofs.Registers.Scaling
import HeatingPlant.Proofs.CommandLine.Acceptance
import HeatingPlant.Proofs.Toml.Distinct
import HeatingPlant.Proofs.Settings.Choices
import HeatingPlant.Proofs.Settings.Overlay
import HeatingPlant.Proofs.Careful.Operations
import HeatingPlant.Proofs.Plant.Actuator
import HeatingPlant.Proofs.Plant.WiderValve
import HeatingPlant.Proofs.Careful.Requests
import HeatingPlant.Proofs.Careful.Serving
import HeatingPlant.Proofs.CommandLine.Disk
import HeatingPlant.Proofs.CommandLine.Rehearsal
