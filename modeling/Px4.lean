import Px4.Uorb.Publishers
import Px4.Uorb.DeviceMaster
import Px4.Tinybson.RoundTrip
import Px4.Parameters.Linearizability
import Px4.Parameters.Unsaved
import Px4.Parameters.ShutdownLock
import Px4.Flashparams.ReadBack
import Px4.Dataman.ArrayStore
import Px4.Dataman.CacheLoading
import Px4.Dataman.CacheCoherence
import Px4.Rings.VariableLengthRingbuffer
import Px4.Rings.TimestampedRingBuffer
import Px4.Logger.EncryptedLog
import Px4.Logger.LogWriterMavlink
import Px4.Mavlink.MissionUpload
import Px4.Mavlink.MissionLanding
import Px4.Mavlink.EventDelivery
import Px4.Mavlink.CommandRetries
import Px4.Mavlink.FtpReplay
import Px4.Mavlink.FtpBurst
import Px4.Mavlink.FtpPermission
import Px4.Navigator.MissionJumps
import Px4.Navigator.FeasibilityChecker
import Px4.Navigator.MissionRouteGenerations
import Px4.Gnss.CorrectionChunks
import Px4.Gnss.RtcmReassembly
import Px4.Cdev.PollSet
import Px4.Cdev.FileMap
import Px4.WorkQueue.Deinit
import Px4.WorkQueue.WorkQueueManager
import Px4.Commander.FailsafeFallback
import Px4.Commander.ExternalArming
import Px4.Commander.ModeNumbers
import Px4.Commander.WorkerThread
import Px4.HealthAndArmingChecks.Reporting
import Px4.Shutdown.Requests
import Px4.Shutdown.Locks
import Px4.ManualControl.ManualControlSelector
import Px4.Rc.Sbus
import Px4.Rc.St24
import Px4.Uavcan.ParamService
import Px4.Replay.Parameters
import Px4.Uorb.SubscriptionInterval
import Px4.Px4iofirmware.PwmRates
import Px4.ManualControl.Hysteresis
import Px4.WorkQueue.BlockingQueue
