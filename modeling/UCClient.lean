import UCClient.Runs
import UCClient.Heap
import UCClient.Basic
import UCClient.JsonValue
import UCClient.JsonReader
import UCClient.JsonWriter
import UCClient.Json
import UCClient.JsonWriting
import UCClient.JsonReading
import UCClient.Messages
import UCClient.Command
import UCClient.CommandSafety
import UCClient.Server
import UCClient.Callback
import UCClient.CommandTrace
import UCClient.Events
import UCClient.Dispatch
import UCClient.Fragments
import UCClient.World
import UCClient.ConnectionTable
import UCClient.ServerTable
import UCClient.Pointers
import UCClient.Registry
import UCClient.Delivery
import UCClient.Effects
import UCClient.Streams
import UCClient.SendQueue
import UCClient.WakeUp
import UCClient.Histories
import UCClient.Script
import UCClient.SessionTable
import UCClient.Consultation
import UCClient.CurrentCall
import UCClient.Forwarding
import UCClient.LifeCycle
import UCClient.PluginRegistry
import UCClient.Closing
import UCClient.PluginQueue
import UCClient.EventOrder
import UCClient.PageMessages
import UCClient.EventMessages
import UCClient.Results
import UCClient.Replies
import UCClient.ReturnCodes
import UCClient.OneReply
import UCClient.CallStatuses
import UCClient.Alternation
import UCClient.Classification
import UCClient.Reconnection
import UCClient.ServiceThread
import UCClient.Utf8
import UCClient.MediaData
import UCClient.Settings
import UCClient.SettingsDialog
import UCClient.StoredSettings
import UCClient.Addresses
import UCClient.ControlWindow
import UCClient.JsonRoundTrip
import UCClient.WindowMessages
import UCClient.Instances
import UCClient.JsonAgreement
import UCClient.RemoteCalls
import UCClient.Conversations
import UCClient.Deployment
