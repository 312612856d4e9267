import WinMiniTools.Words
import WinMiniTools.Loops
import WinMiniTools.Machines
import WinMiniTools.RtcpParser
import WinMiniTools.RtcpBounds
import WinMiniTools.RtcpWire
import WinMiniTools.BitCounts
import WinMiniTools.DottedQuads
import WinMiniTools.ArpPackets
import WinMiniTools.SubnetSweep
import WinMiniTools.ArpReceive
import WinMiniTools.ScanRace
import WinMiniTools.DeviceMenu
import WinMiniTools.DosPaths
import WinMiniTools.Trampolines
import WinMiniTools.PrintHooks
import WinMiniTools.HookThreads
import WinMiniTools.ArpRequests
import WinMiniTools.HostCounts
import WinMiniTools.RtcpFile
import WinMiniTools.RtcpProgress
import WinMiniTools.ExemptNames
import WinMiniTools.Cursors
import WinMiniTools.ProcessNames
import WinMiniTools.OriginalNames
import WinMiniTools.AddressFailures
import WinMiniTools.Successors
import WinMiniTools.WindowWalk
import WinMiniTools.Decimals
import WinMiniTools.RouteReport
import WinMiniTools.Formats
import WinMiniTools.RtcpCounts
import WinMiniTools.ChildWindows
import WinMiniTools.DebugMessages
import WinMiniTools.AddressSpaces
import WinMiniTools.Processors
import WinMiniTools.MhookJumps
import WinMiniTools.Mhook
import WinMiniTools.MhookHooked
import WinMiniTools.MhookRuns
import WinMiniTools.MhookRefines
import WinMiniTools.PrintHookCode
import WinMiniTools.AddressForms
import WinMiniTools.DisasmAddresses
import WinMiniTools.DisasmPrefixes
