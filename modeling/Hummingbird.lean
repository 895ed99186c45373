import Hummingbird.Library.Past
import Hummingbird.Library.Machine
import Hummingbird.Library.WithNaN
import Hummingbird.Library.Approach
import Hummingbird.Library.Turns
import Hummingbird.Library.Numerals
import Hummingbird.Library.Rotation
import Hummingbird.Library.SpecialOrthogonal
import Hummingbird.Library.Euler
import Hummingbird.Library.Mailbox
import Hummingbird.Library.Bisect
import Hummingbird.Library.Dialogue
import Hummingbird.Library.Memo
import Hummingbird.Library.Pacing
import Hummingbird.Library.Stitch
import Hummingbird.Library.Blend
import Hummingbird.Library.Loop
import Hummingbird.Library.Circular
import Hummingbird.Library.Timeline
import Hummingbird.Library.Viewport
import Hummingbird.Library.Watchdog
import Hummingbird.Library.Window
import Hummingbird.Library.Raising
import Hummingbird.Params
import Hummingbird.Utils.Double
import Hummingbird.Utils.Lpf
import Hummingbird.Utils.LpfHistory
import Hummingbird.Utils.Angle
import Hummingbird.Utils.Attitude
import Hummingbird.Utils.Handoff
import Hummingbird.Utils.Path
import Hummingbird.Utils.AttitudeAngles
import Hummingbird.Utils.FeedForward
import Hummingbird.Utils.Staircase
import Hummingbird.Utils.CircularDistance
import Hummingbird.Utils.Slew
import Hummingbird.PositionCmd.Messages
import Hummingbird.PositionCmd.Node
import Hummingbird.PositionCmd.Tick
import Hummingbird.PositionCmd.Run
import Hummingbird.PositionCmd.Modes
import Hummingbird.PositionCmd.Publications
import Hummingbird.PositionCmd.ActiveState
import Hummingbird.PositionCmd.PathStart
import Hummingbird.PositionCmd.HandoffStart
import Hummingbird.PositionCmd.HandoffTrajectory
import Hummingbird.PositionCmd.HandoffEnd
import Hummingbird.PositionCmd.Resume
import Hummingbird.PositionCmd.Takeover
import Hummingbird.PositionCmd.Usable
import Hummingbird.PositionCmd.Pacing
import Hummingbird.PositionCmd.PoseReached
import Hummingbird.PositionCmd.PathSlew
import Hummingbird.PositionCmd.Diagnostics
import Hummingbird.PositionCmd.InputReports
import Hummingbird.PositionCmd.SilentInput
import Hummingbird.Servo.Messages
import Hummingbird.Servo.Dynamixel
import Hummingbird.Servo.Ppr
import Hummingbird.Servo.Gz
import Hummingbird.Servo.Lockstep
import Hummingbird.Servo.Outage
import Hummingbird.Servo.ReturnJump
import Hummingbird.Servo.GzRange
import Hummingbird.Servo.Bus
import Hummingbird.Servo.Startup
import Hummingbird.Servo.TorqueSafety
import Hummingbird.Servo.JointRange
import Hummingbird.Servo.StartupReturn
import Hummingbird.Servo.StartupFailure
import Hummingbird.Servo.WriteCall
import Hummingbird.Servo.WriteRuns
import Hummingbird.Servo.Lifetime
import Hummingbird.Servo.LifeTorque
import Hummingbird.Servo.Wire
import Hummingbird.Servo.RateLog
import Hummingbird.Servo.OutageReports
import Hummingbird.Mocap.Utils
import Hummingbird.Mocap.Transform
import Hummingbird.Mocap.Node
import Hummingbird.Mocap.Publications
import Hummingbird.Mocap.InputWatch
import Hummingbird.Viewer.Pose
import Hummingbird.Viewer.Json
import Hummingbird.Viewer.Messages
import Hummingbird.Viewer.Node
import Hummingbird.Viewer.Callbacks
import Hummingbird.Viewer.Ingest
import Hummingbird.Viewer.ReplayRows
import Hummingbird.Viewer.Logger
import Hummingbird.Viewer.Accounting
import Hummingbird.Viewer.LogWrites
import Hummingbird.Viewer.Replay
import Hummingbird.Viewer.ReplayRange
import Hummingbird.Viewer.FmuPose
import Hummingbird.Viewer.Rendering
import Hummingbird.Viewer.Recording
import Hummingbird.Viewer.RotToQuat
import Hummingbird.Viewer.Ring
import Hummingbird.Viewer.Float
import Hummingbird.Viewer.Slider
import Hummingbird.Viewer.ReplayControls
import Hummingbird.Viewer.Timeline
import Hummingbird.Viewer.Bands
import Hummingbird.Viewer.Curves
import Hummingbird.Viewer.OptiHealth
import Hummingbird.Viewer.PyValue
import Hummingbird.Viewer.DamagedIngest
import Hummingbird.Viewer.DamagedLog
import Hummingbird.Viewer.DamagedReplay
import Hummingbird.Viewer.WarmUp
import Hummingbird.Viewer.IngestAgree
