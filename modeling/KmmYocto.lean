import KmmYocto.Trace
import KmmYocto.Env
import KmmYocto.Mbr
import KmmYocto.McoreImage
import KmmYocto.SplBoot
import KmmYocto.UBootProper
import KmmYocto.AbShell
import KmmYocto.AbLinux
import KmmYocto.AbMcore
import KmmYocto.Sha256
import KmmYocto.Device
import KmmYocto.BootEffects
import KmmYocto.CommandEffects
import KmmYocto.LinuxSlots
import KmmYocto.ConfirmedSlot
import KmmYocto.TrialWrites
import KmmYocto.UnreadableEnv
import KmmYocto.FalconTicket
import KmmYocto.Tickets
import KmmYocto.TrialBound
import KmmYocto.McoreWatch
import KmmYocto.PowerCut
import KmmYocto.AbSpl
import KmmYocto.SplCopies
import KmmYocto.TrySessions
import KmmYocto.SameView
import KmmYocto.LinuxView
import KmmYocto.LinuxPart
import KmmYocto.Independence
import KmmYocto.XpiBoot
import KmmYocto.XpiRepair
import KmmYocto.McoreTicket
import KmmYocto.ByteMemory
import KmmYocto.M7Stage
import KmmYocto.McoreFormat
import KmmYocto.M7Gate
import KmmYocto.Keepalive
import KmmYocto.KeepaliveTimer
import KmmYocto.RpmsgCan
import KmmYocto.CanView
import KmmYocto.CanLife
import KmmYocto.KeepaliveBind
import KmmYocto.CanBind
import KmmYocto.KeepaliveCounts
import KmmYocto.KeepaliveWatch
import KmmYocto.WatchSound
import KmmYocto.SwitchOutcome
import KmmYocto.SlotAgreement
import KmmYocto.CanWire
import KmmYocto.KeepaliveSessions
import KmmYocto.SplFaults
import KmmYocto.SplHistory
import KmmYocto.AbRemote
import KmmYocto.SplashTakeover
import KmmYocto.LogoHeader
import KmmYocto.LogoDraw
import KmmYocto.RunningSlot
import KmmYocto.LogoBounds
import KmmYocto.A64
import KmmYocto.MbrSwitch
import KmmYocto.RomLog
import KmmYocto.Bl33Shim
import KmmYocto.Runs
import KmmYocto.StageTimer
import KmmYocto.MeasureBoot
import KmmYocto.BootCheck
import KmmYocto.MediumParts
import KmmYocto.EmmcLayout
import KmmYocto.SystemCounter
import KmmYocto.CanStream
import KmmYocto.RpmsgEcho
import KmmYocto.LibcMin
import KmmYocto.Crc
import KmmYocto.Binary64
import KmmYocto.Dp100
import KmmYocto.Dp100Set
import KmmYocto.SlotContents
import KmmYocto.Recovery
import KmmYocto.UpdateRun
import KmmYocto.M4Gate
import KmmYocto.LastWins
import KmmYocto.FirstSplit
import KmmYocto.UbootEnvText
import KmmYocto.BoundedLane
import KmmYocto.UartBridge
import KmmYocto.KeyedLines
import KmmYocto.EepromSetup
import KmmYocto.A53Overdrive
import KmmYocto.PatternLogo
import KmmYocto.Tryboot
