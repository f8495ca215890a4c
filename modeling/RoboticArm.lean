import RoboticArm.Runs
import RoboticArm.Arm
import RoboticArm.State
import RoboticArm.Motion
import RoboticArm.Tick
import RoboticArm.Loop
import RoboticArm.Frame
import RoboticArm.Cycle
import RoboticArm.Replay
import RoboticArm.Invariant
import RoboticArm.Effect
import RoboticArm.Index
import RoboticArm.Pause
import RoboticArm.Outputs
import RoboticArm.Treatment
import RoboticArm.Calls
import RoboticArm.Marks
import RoboticArm.Samples
import RoboticArm.Workspace
import RoboticArm.Kinematics
import RoboticArm.Uart
import RoboticArm.Imu
import RoboticArm.Burn
import RoboticArm.Sight
import RoboticArm.Targets
import RoboticArm.Modes
import RoboticArm.Hover
import RoboticArm.Jogging
import RoboticArm.KeyPaths
import RoboticArm.Cyclic
import RoboticArm.UartQueue
import RoboticArm.Nec
import RoboticArm.OneSlot
import RoboticArm.Mailbox
import RoboticArm.Register
import RoboticArm.Bytes
import RoboticArm.Crc
import RoboticArm.Distance
import RoboticArm.Capture
import RoboticArm.Attitude
import RoboticArm.Advance
import RoboticArm.Can
import RoboticArm.Stepper
import RoboticArm.Limits
import RoboticArm.Nearest
import RoboticArm.Vertical
import RoboticArm.WholeArm
import RoboticArm.Panel
import RoboticArm.Prompts
import RoboticArm.Warning
import RoboticArm.Compensation
import RoboticArm.Smoothing
import RoboticArm.Filter
import RoboticArm.Levelling
import RoboticArm.Durations
import RoboticArm.Remaining
import RoboticArm.SendStatus
import RoboticArm.SoftFilter
import RoboticArm.Dma
import RoboticArm.Reception
import RoboticArm.Preempted
import RoboticArm.NecTrace
import RoboticArm.Remote
import RoboticArm.RegisterErrors
import RoboticArm.CrcErrors
import RoboticArm.Decimal
import RoboticArm.Screen
import RoboticArm.Pixel
import RoboticArm.Bus
import RoboticArm.Horner
import RoboticArm.Series
import RoboticArm.FastTrig
import RoboticArm.Accuracy
import RoboticArm.Itinerary
import RoboticArm.Punctual
import RoboticArm.Figures
