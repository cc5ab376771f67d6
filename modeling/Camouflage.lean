import Camouflage.Address.Endpoint
import Camouflage.Address.Ipv4
import Camouflage.Address.Ipv6
import Camouflage.Bytes
import Camouflage.CommandLine.Arguments
import Camouflage.CommandLine.FileTree
import Camouflage.CommandLine.Report
import Camouflage.CommandLine.Run
import Camouflage.Config.Basic
import Camouflage.Config.Fault
import Camouflage.Config.OfJson
import Camouflage.Config.OfSettings
import Camouflage.Config.Write
import Camouflage.Duration
import Camouflage.Fault
import Camouflage.Json.Fault
import Camouflage.Json.Number
import Camouflage.Json.Reader
import Camouflage.Json.Write
import Camouflage.Limits
import Camouflage.Main
import Camouflage.Outside.Lookup
import Camouflage.Outside.Network
import Camouflage.Placeholder
import Camouflage.Prefix.Absorb
import Camouflage.Prefix.Dns
import Camouflage.Prefix.Maker
import Camouflage.Prefix.Policy
import Camouflage.Program.Basic
import Camouflage.Program.Builtin
import Camouflage.Program.Parse
import Camouflage.Program.Print
import Camouflage.Program.Standard
import Camouflage.Proofs.Address.Ipv4
import Camouflage.Proofs.Address.Ipv6
import Camouflage.Proofs.Config.Build
import Camouflage.Proofs.Config.Hexadecimal
import Camouflage.Proofs.Config.Loaders
import Camouflage.Proofs.Config.Recommended
import Camouflage.Proofs.Json.Written
import Camouflage.Proofs.Outcome
import Camouflage.Proofs.Prefix.Absorb
import Camouflage.Proofs.Prefix.DnsProgram
import Camouflage.Proofs.Prefix.Pairing
import Camouflage.Proofs.Prefix.Session
import Camouflage.Proofs.Prefix.Verdict
import Camouflage.Proofs.Program.Cut
import Camouflage.Proofs.Program.Grammar
import Camouflage.Proofs.Program.Hints
import Camouflage.Proofs.Program.Length
import Camouflage.Proofs.Program.Pattern
import Camouflage.Proofs.Program.Promises
import Camouflage.Proofs.Program.Reference
import Camouflage.Proofs.Program.Registrations
import Camouflage.Proofs.Program.RoundTrip
import Camouflage.Proofs.Program.Spelled
import Camouflage.Proofs.Program.Version
import Camouflage.Proofs.Random.Bounds
import Camouflage.Proofs.Random.Draws
import Camouflage.Proofs.Random.Returns
import Camouflage.Proofs.Random.Sharing
import Camouflage.Proofs.Settings.Lines
import Camouflage.Proofs.Settings.RoundTrip
import Camouflage.Proofs.Stream.Arrival
import Camouflage.Proofs.Stream.Conversation
import Camouflage.Proofs.Stream.Layer
import Camouflage.Proofs.Stream.Shortfall
import Camouflage.Proofs.Stream.Smoothed
import Camouflage.Proofs.Stream.Timely
import Camouflage.Proofs.Stream.Timetable
import Camouflage.Proofs.Stream.Transparent
import Camouflage.Proofs.Stream.Written
import Camouflage.Proofs.Target.Canonical
import Camouflage.Proofs.Target.Forwarding
import Camouflage.Proofs.Target.Header
import Camouflage.Proofs.Target.Layout
import Camouflage.Proofs.Target.Placeholder
import Camouflage.Proofs.Text.Cuts
import Camouflage.Proofs.Text.Decoding
import Camouflage.Proofs.Text.Hex
import Camouflage.Proofs.Text.Numeral
import Camouflage.Proofs.Text.Utf8
import Camouflage.Proofs.Tunnel.Deadline
import Camouflage.Proofs.Tunnel.Dial
import Camouflage.Proofs.Tunnel.EndToEnd
import Camouflage.Proofs.Tunnel.FaultClass
import Camouflage.Proofs.Tunnel.Request
import Camouflage.Proofs.Tunnel.Wire
import Camouflage.Random.Handles
import Camouflage.Random.KeyStream
import Camouflage.Random.Source
import Camouflage.Settings
import Camouflage.Settings.Write
import Camouflage.Stream.Basic
import Camouflage.Stream.Peer
import Camouflage.Stream.Smoothed
import Camouflage.Stream.Whole
import Camouflage.Table
import Camouflage.Target
import Camouflage.Text.Blank
import Camouflage.Text.Escape
import Camouflage.Text.Hex
import Camouflage.Text.Integer
import Camouflage.Text.Printable
import Camouflage.Text.Quoted
import Camouflage.Text.Shortest
import Camouflage.Text.Split
import Camouflage.Text.Utf8
import Camouflage.Tunnel.Dial
import Camouflage.Tunnel.Listen
