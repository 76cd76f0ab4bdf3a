import KlipperMcu.Lib.BackReference
import KlipperMcu.Lib.BisectLeft
import KlipperMcu.Lib.Buffer
import KlipperMcu.Lib.Chain
import KlipperMcu.Lib.Channel
import KlipperMcu.Lib.Crc
import KlipperMcu.Lib.Extend
import KlipperMcu.Lib.Heap
import KlipperMcu.Lib.Incremental
import KlipperMcu.Lib.InsertionSort
import KlipperMcu.Lib.IntBits
import KlipperMcu.Lib.LeakySum
import KlipperMcu.Lib.LowPass
import KlipperMcu.Lib.Move
import KlipperMcu.Lib.NewtonSqrt
import KlipperMcu.Lib.Packing
import KlipperMcu.Lib.Quadratic
import KlipperMcu.Lib.Reads
import KlipperMcu.Lib.Run
import KlipperMcu.Lib.Signed
import KlipperMcu.Lib.SlidingWindow
import KlipperMcu.Lib.Streak
import KlipperMcu.Lib.Tally
import KlipperMcu.Lib.Vlq
import KlipperMcu.Lib.Waveform
import KlipperMcu.Lib.Word
import KlipperMcu.Lib.WrapOrder
import KlipperMcu.Firmware.AnalogIn
import KlipperMcu.Firmware.ArmcmTimer
import KlipperMcu.Firmware.Buttons
import KlipperMcu.Firmware.CanSerial
import KlipperMcu.Firmware.CloseReport
import KlipperMcu.Firmware.Console
import KlipperMcu.Firmware.ConsoleSendf
import KlipperMcu.Firmware.CurrentCalibration
import KlipperMcu.Firmware.DigitalOut
import KlipperMcu.Firmware.DigitalRun
import KlipperMcu.Firmware.Dispatch
import KlipperMcu.Firmware.DispatchBounds
import KlipperMcu.Firmware.DispatchShutdown
import KlipperMcu.Firmware.Eddy
import KlipperMcu.Firmware.EddyBounds
import KlipperMcu.Firmware.EddyCalibration
import KlipperMcu.Firmware.EddyHardTrigger
import KlipperMcu.Firmware.EddyIsqrt
import KlipperMcu.Firmware.EddyNoise
import KlipperMcu.Firmware.EddyScrub
import KlipperMcu.Firmware.EddyTimer
import KlipperMcu.Firmware.EddyTrigger
import KlipperMcu.Firmware.Encode
import KlipperMcu.Firmware.Endstop
import KlipperMcu.Firmware.FindBlock
import KlipperMcu.Firmware.MainBoardDigital
import KlipperMcu.Firmware.Message
import KlipperMcu.Firmware.MotorPins
import KlipperMcu.Firmware.MotorStepper
import KlipperMcu.Firmware.MoveNodes
import KlipperMcu.Firmware.MoveObjects
import KlipperMcu.Firmware.MoveQueue
import KlipperMcu.Firmware.Oids
import KlipperMcu.Firmware.PwmOut
import KlipperMcu.Firmware.PwmRun
import KlipperMcu.Firmware.QuarterTurns
import KlipperMcu.Firmware.RuntimeMemory
import KlipperMcu.Firmware.RuntimeScatter
import KlipperMcu.Firmware.SampleFilter
import KlipperMcu.Firmware.Sched
import KlipperMcu.Firmware.ShutdownCode
import KlipperMcu.Firmware.Stepper
import KlipperMcu.Firmware.StepperPosition
import KlipperMcu.Firmware.Tasks
import KlipperMcu.Firmware.TimerDispatch
import KlipperMcu.Firmware.TimerList
import KlipperMcu.Firmware.TimerOrder
import KlipperMcu.Firmware.TimerRun
import KlipperMcu.Firmware.TmcUart
import KlipperMcu.Firmware.TmcUartRead
import KlipperMcu.Firmware.Trsync
import KlipperMcu.Firmware.TrsyncRun
import KlipperMcu.Firmware.Uptime
import KlipperMcu.Host.Bisect
import KlipperMcu.Host.BisectCorrect
import KlipperMcu.Host.BisectInner
import KlipperMcu.Host.BisectOuter
import KlipperMcu.Host.BuildCommands
import KlipperMcu.Host.Buttons
import KlipperMcu.Host.CheckLine
import KlipperMcu.Host.ClockSync
import KlipperMcu.Host.InputEvent
import KlipperMcu.Host.MoveClock
import KlipperMcu.Host.MoveHeap
import KlipperMcu.Host.MsgProto
import KlipperMcu.Host.PastPosition
import KlipperMcu.Host.SerialQueue
import KlipperMcu.Host.SerialQueueRun
import KlipperMcu.Host.StepCompress
import KlipperMcu.Host.StepConservation
import KlipperMcu.Host.StepQueue
import KlipperMcu.Host.StepStorage
import KlipperMcu.Host.StepperSync
import KlipperMcu.Host.TmcRegisters
import KlipperMcu.Host.TmcUart
import KlipperMcu.Host.Trdispatch
import KlipperMcu.Host.Windows
import KlipperMcu.Tools.ScatterCompress
import KlipperMcu.Tools.ScatterFormat
import KlipperMcu.Tools.ScatterLexicographic
import KlipperMcu.Tools.ScatterMatches
import KlipperMcu.Tools.ScatterTree
import KlipperMcu.Tools.Scatterload
import KlipperMcu.Link.ButtonsLink
import KlipperMcu.Link.ButtonsPressed
import KlipperMcu.Link.ClockLink
import KlipperMcu.Link.CommandLink
import KlipperMcu.Link.CommandStream
import KlipperMcu.Link.ConfigLink
import KlipperMcu.Link.Crc16
import KlipperMcu.Link.IdentifyLink
import KlipperMcu.Link.NeopixelLink
import KlipperMcu.Link.NotifyLink
import KlipperMcu.Link.ScatterDecoders
import KlipperMcu.Link.SerialLink
import KlipperMcu.Link.StepClock
import KlipperMcu.Link.TmcLink
import KlipperMcu.Link.TrsyncLink
